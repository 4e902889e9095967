import GraphEngine.CapabilityParsing
import GraphEngine.Negotiation

/-!
What a negotiation settles. A contract holds, on each applicable dimension, a
value that the output and every input accept; a conflict means that some dimension
has no such value, that a mandatory one is left open by all sides, or that the
wanted sync policy is not supported.
-/

namespace GraphEngine.NegotiatedContracts

open Values GraphSpecs Capabilities CapabilityParsing Constraints Negotiation List PortCapability

section Ranges

variable {Bound : Type} [LinearOrder Bound]

def InRange (side : Option (Range Bound)) (value : Bound) : Prop :=
  ∀ range, side = some range → range.min ≤ value ∧ value ≤ range.max

theorem inRange_intersect (left right : Option (Range Bound)) (value : Bound) :
    InRange (intersectRanges left right) value ↔ InRange left value ∧ InRange right value := by
  cases left with
  | none => simp [intersectRanges, InRange]
  | some left =>
    cases right with
    | none => simp [intersectRanges, InRange]
    | some right =>
      simp only [intersectRanges, Range.intersect, InRange, Option.some.injEq, forall_eq']
      constructor
      · rintro ⟨low, high⟩
        split at low <;> split at high <;> grind
      · rintro ⟨⟨leftLow, leftHigh⟩, rightLow, rightHigh⟩
        constructor <;> split <;> assumption

theorem isSome_intersect (left right : Option (Range Bound)) :
    (intersectRanges left right).isSome = (left.isSome || right.isSome) := by
  cases left <;> cases right <;> rfl

theorem isEmpty_iff (range : Range Bound) :
    Range.isEmpty range = true ↔ ¬ ∃ value, InRange (some range) value := by
  simp only [Range.isEmpty, InRange, Option.some.injEq, forall_eq', decide_eq_true_eq, not_exists,
    not_and, not_le]
  constructor
  · intro empty value low
    exact empty.trans_le low
  · intro none
    exact none range.min le_rfl

end Ranges

/-! What the sides of a negotiation say. -/

section Sides

variable (output : PortCapability) (inputs : List PortCapability)

def CommonIn {Value : Type} (dimension : PortCapability → Option (List Value)) (value : Value) :
    Prop :=
  ∀ port ∈ output :: inputs, InSet (dimension port) value

/-- The sides constrain a set dimension and leave nothing. -/
def SetConflict {Value : Type} (dimension : PortCapability → Option (List Value)) : Prop :=
  (∃ port ∈ output :: inputs, (dimension port).isSome = true) ∧
    ¬ ∃ value, CommonIn output inputs dimension value

/-- No side constrains a mandatory dimension, or they leave nothing. -/
def MandatoryConflict (dimension : PortCapability → Option FormatSet) : Prop :=
  (¬ ∃ port ∈ output :: inputs, (dimension port).isSome = true) ∨
    ¬ ∃ value, CommonIn output inputs dimension value

def RangeConflict {Bound : Type} [LinearOrder Bound]
    (dimension : PortCapability → Option (Range Bound)) : Prop :=
  ¬ ∃ value, ∀ port ∈ output :: inputs, InRange (dimension port) value

/-- A dimension of a tensor; a negative maximum means unbounded. -/
def DimAccepts (range : IntRange) (size : Int) : Prop :=
  range.min ≤ size ∧ (0 ≤ range.max → size ≤ range.max)

/-- An empty shape accepts every tensor. -/
def ShapeAccepts (declared : List IntRange) (sizes : List Int) : Prop :=
  declared = [] ∨ List.Forall₂ DimAccepts declared sizes

def ShapeConflict : Prop := ¬ ∃ sizes, ∀ port ∈ output :: inputs, ShapeAccepts (shape port) sizes

def SetAgreed {Value : Type} (dimension : PortCapability → Option (List Value)) :
    Option Value → Prop
  | none => ∀ port ∈ output :: inputs, dimension port = none
  | some value => CommonIn output inputs dimension value

def RangeAgreed {Bound : Type} [LinearOrder Bound]
    (dimension : PortCapability → Option (Range Bound)) : Option (Range Bound) → Prop
  | none => ∀ port ∈ output :: inputs, dimension port = none
  | some range => range.min ≤ range.max ∧ ∀ value, range.min ≤ value → value ≤ range.max →
      ∀ port ∈ output :: inputs, InRange (dimension port) value

/-- The chosen shape: no dimension is empty, and every side accepts every tensor
of that shape. -/
structure ShapeAgreed (chosen : List IntRange) : Prop where
  open_ : chosen = [] → ∀ port ∈ output :: inputs, shape port = []
  nonempty : ∀ range ∈ chosen, ∃ size, DimAccepts range size
  accepted : ∀ sizes, List.Forall₂ DimAccepts chosen sizes →
    ∀ port ∈ output :: inputs, ShapeAccepts (shape port) sizes

structure VideoAgreed (chosen : SelectedVideoFormat) : Prop where
  pixelFormat : CommonIn output inputs pixelFormats chosen.pixelFormat
  width : RangeAgreed output inputs width chosen.width
  height : RangeAgreed output inputs height chosen.height
  fps : RangeAgreed output inputs fps chosen.fps
  colorSpace : SetAgreed output inputs colorSpaces chosen.colorSpace
  colorRange : SetAgreed output inputs colorRanges chosen.colorRange
  hdrMode : SetAgreed output inputs hdrModes chosen.hdrMode

def VideoConflict : Prop :=
  MandatoryConflict output inputs pixelFormats ∨ RangeConflict output inputs width ∨
    RangeConflict output inputs height ∨ RangeConflict output inputs fps ∨
    SetConflict output inputs colorSpaces ∨ SetConflict output inputs colorRanges ∨
    SetConflict output inputs hdrModes

structure AudioAgreed (chosen : SelectedAudioFormat) : Prop where
  sampleFormat : CommonIn output inputs sampleFormats chosen.sampleFormat
  sampleRate : RangeAgreed output inputs sampleRate chosen.sampleRate
  channelLayout : SetAgreed output inputs channelLayouts chosen.channelLayout

def AudioConflict : Prop :=
  MandatoryConflict output inputs sampleFormats ∨ RangeConflict output inputs sampleRate ∨
    SetConflict output inputs channelLayouts

structure TensorAgreed (shaped : List IntRange → Prop) (chosen : SelectedTensorFormat) : Prop where
  dtype : CommonIn output inputs dtypes chosen.dtype
  layout : SetAgreed output inputs layouts chosen.layout
  shape : shaped chosen.shape

def TensorConflict (shapes : Prop) : Prop :=
  shapes ∨ MandatoryConflict output inputs dtypes ∨ SetConflict output inputs layouts

/-- The device is chosen for memory that lives on one. -/
structure MemoryAgreed (kind : MemoryKind) (device : Int) : Prop where
  kindCommon : CommonIn output inputs memoryKinds kind
  deviceCommon : kind = .cudaDevice ∨ kind = .pinned → CommonIn output inputs deviceIds device
  onHost : ¬ (kind = .cudaDevice ∨ kind = .pinned) → device = -1

def MemoryConflict : Prop :=
  SetConflict output inputs memoryKinds ∨ SetConflict output inputs deviceIds

def Supported (policy : SyncPolicy) : Prop := ∀ input ∈ inputs, InSet input.sync policy

variable (pref : PreferenceSet) (edgeSync : Option SyncPolicy)

structure SyncAgreed (policy : SyncPolicy) : Prop where
  supported : Supported inputs policy
  wanted : ∀ want, edgeSync = some want → policy = want

def SyncConflict : Prop :=
  ((∃ input ∈ inputs, input.sync.isSome = true) ∧ ¬ ∃ policy, Supported inputs policy) ∨
    ∃ want, (edgeSync <|> pref.syncPolicy) = some want ∧ ¬ Supported inputs want

/-- A group of dimensions applies to the built-in types that some side describes. -/
def Applies {Format : Type} (declared : PortCapability → Option Format) : Prop :=
  isBuiltinTypeTag output.typeTag = true ∧ ∃ port ∈ output :: inputs, (declared port).isSome = true

def GroupAgreed {Format Chosen : Type} (declared : PortCapability → Option Format)
    (agreed : Chosen → Prop) : Option Chosen → Prop
  | none => ¬ Applies output inputs declared
  | some chosen => Applies output inputs declared ∧ agreed chosen

/-- What is said about the shapes is a parameter, here and in `Conflicting`. -/
structure Agreed (shaped : List IntRange → Prop) (contract : ConnectionContract) : Prop where
  logicalType : ∀ port ∈ output :: inputs, port.typeTag = contract.logicalType
  video : GroupAgreed output inputs video (VideoAgreed output inputs) contract.video
  audio : GroupAgreed output inputs audio (AudioAgreed output inputs) contract.audio
  tensor : GroupAgreed output inputs tensor (TensorAgreed output inputs shaped) contract.tensor
  memory : MemoryAgreed output inputs contract.memoryKind contract.deviceId
  sync : SyncAgreed inputs edgeSync contract.syncPolicy

def Conflicting (shapes : Prop) : Prop :=
  (∃ input ∈ inputs, input.typeTag ≠ output.typeTag) ∨
    (Applies output inputs video ∧ VideoConflict output inputs) ∨
    (Applies output inputs audio ∧ AudioConflict output inputs) ∨
    (Applies output inputs tensor ∧ TensorConflict output inputs shapes) ∨
    MemoryConflict output inputs ∨ SyncConflict inputs pref edgeSync

end Sides

/-! A step of the negotiation ends with a conflict exactly under a condition, and
otherwise with a good value. -/

def Settles {Value : Type} (run : Except Refusal Value) (conflicting : Prop)
    (good : Value → Prop) : Prop :=
  match run with
  | .ok value => ¬ conflicting ∧ good value
  | .error (.conflict _) => conflicting
  | .error (.invalidArgument _) => False

section Settling

variable {Value Next : Type} {run : Except Refusal Value} {conflicting later : Prop}
  {good : Value → Prop} {next : Value → Except Refusal Next} {after : Next → Prop}

theorem settles_bind (first : Settles run conflicting good)
    (second : ∀ value, good value → Settles (next value) later after) :
    Settles (run >>= next) (conflicting ∨ later) after := by
  cases run with
  | error refusal =>
    cases refusal with
    | invalidArgument message => exact first
    | conflict found => exact .inl first
  | ok value =>
    have rest := second value first.2
    show Settles (next value) _ _
    revert rest
    cases next value with
    | error refusal =>
      cases refusal with
      | invalidArgument message => exact id
      | conflict found => exact .inr
    | ok result => exact fun rest => ⟨not_or.mpr ⟨first.1, rest.1⟩, rest.2⟩

theorem settles_ok {value : Value} (fine : good value) :
    Settles (.ok value : Except Refusal Value) False good :=
  ⟨id, fine⟩

variable (first : Settles run conflicting good)
include first

theorem settles_mono {better : Value → Prop} (follows : ∀ value, good value → better value) :
    Settles run conflicting better := by
  cases run with
  | error refusal => cases refusal <;> exact first
  | ok value => exact ⟨first.1, follows value first.2⟩

theorem settles_map {result : Value → Next} (fine : ∀ value, good value → after (result value)) :
    Settles (run >>= fun value => .ok (result value)) conflicting after := by
  have both : Settles (run >>= fun value => .ok (result value)) (conflicting ∨ False) after :=
    settles_bind first fun value good => settles_ok (fine value good)
  rwa [or_false] at both

theorem settles_congr {other : Prop} (same : conflicting ↔ other) : Settles run other good := by
  rwa [propext same] at first

omit first

end Settling

variable {common other dims : List IntRange}

section Steps

variable {output : PortCapability} {inputs : List PortCapability} {consumerNames : List String}
variable {Value : Type}

theorem commonSet_in [DecidableEq Value] (dimension : PortCapability → Option (List Value))
    (value : Value) :
    InSet (commonSet output inputs dimension) value ↔ CommonIn output inputs dimension value := by
  rw [commonSet, inSet_foldl, CommonIn]
  simp

theorem commonSet_isSome [DecidableEq Value] (dimension : PortCapability → Option (List Value)) :
    (commonSet output inputs dimension).isSome = true ↔
      ∃ port ∈ output :: inputs, (dimension port).isSome = true := by
  rw [commonSet, isSome_foldl]
  simp

variable {dimension : PortCapability → Option (List Value)}

theorem commonSet_none [DecidableEq Value] (absent : commonSet output inputs dimension = none) :
    ∀ port ∈ output :: inputs, dimension port = none := by
  intro port member
  by_contra present
  have some : (commonSet output inputs dimension).isSome = true :=
    (commonSet_isSome dimension).mpr ⟨port, member, Option.isSome_iff_ne_none.mpr present⟩
  rw [absent] at some
  cases some

theorem commonSet_empty [DecidableEq Value] (dimension : PortCapability → Option (List Value)) :
    commonSet output inputs dimension = some [] ↔ SetConflict output inputs dimension := by
  rw [commonSet, foldl_empty, SetConflict, Clash]
  simp [CommonIn]

theorem commonSet_unsettled (dimension : PortCapability → Option FormatSet) :
    (commonSet output inputs dimension = none ∨ commonSet output inputs dimension = some []) ↔
      MandatoryConflict output inputs dimension := by
  rw [commonSet, foldl_unsettled, MandatoryConflict, Unsettled]
  simp [CommonIn]

theorem checkSet_settles (name : String) (lhs rhs : Candidates) (common : Option (List Value)) :
    Settles (checkSet output consumerNames name lhs rhs common) (common = some [])
      (fun _ => common ≠ some []) := by
  unfold checkSet
  split
  · exact rfl
  · next present => exact ⟨present, present⟩

theorem requireSet_settles (name : String) (lhs rhs : Candidates) (common : Option FormatSet) :
    Settles (requireSet output consumerNames name lhs rhs common)
      (common = none ∨ common = some []) (fun set => common = some set ∧ set ≠ []) := by
  unfold requireSet
  split
  · exact ⟨by simp, rfl, nofun⟩
  rename_i absent
  cases common with
  | none => exact .inl rfl
  | some set =>
    cases set with
    | nil => exact .inr rfl
    | cons first rest => exact absurd rfl (absent first rest)

theorem setAgreed_map [DecidableEq Value] {choose : List Value → Value}
    (present : commonSet output inputs dimension ≠ some [])
    (chooses : ∀ set, set ≠ [] → choose set ∈ set) :
    SetAgreed output inputs dimension ((commonSet output inputs dimension).map choose) := by
  cases common : commonSet output inputs dimension with
  | none => exact commonSet_none common
  | some set =>
    have chosen : choose set ∈ set := by
      refine chooses set ?_
      rintro rfl
      exact present common
    exact (commonSet_in dimension _).mp (common ▸ inSet_some.mpr chosen)

theorem common_of_mem [DecidableEq Value] {set : List Value} {value : Value}
    (common : commonSet output inputs dimension = some set) (member : value ∈ set) :
    CommonIn output inputs dimension value :=
  (commonSet_in dimension value).mp (common ▸ inSet_some.mpr member)

theorem choose_mem {common : FormatSet} (present : common ≠ [])
    (callerPref inputPriority : Option FormatSet) :
    chooseDeterministically common callerPref inputPriority ∈ common := by
  unfold chooseDeterministically
  cases preferred : (callerPref.getD []).find? (· ∈ common) with
  | some choice => simpa using find?_some preferred
  | none =>
    cases prior : (inputPriority.getD []).find? (· ∈ common) with
    | some choice => simpa using find?_some prior
    | none =>
      cases common with
      | nil => exact absurd rfl present
      | cons first rest => exact mem_cons_self

section Ranges

variable {Bound : Type} [LinearOrder Bound]

theorem commonRange_in (dimension : PortCapability → Option (Range Bound)) (value : Bound) :
    InRange (commonRange output inputs dimension) value ↔
      ∀ port ∈ output :: inputs, InRange (dimension port) value := by
  rw [commonRange, foldl_meet inRange_intersect]
  simp

theorem commonRange_none {dimension : PortCapability → Option (Range Bound)}
    (absent : commonRange output inputs dimension = none) :
    ∀ port ∈ output :: inputs, dimension port = none := by
  have folded : ∀ (sides : List (Option (Range Bound))) (start : Option (Range Bound)),
      sides.foldl intersectRanges start = none → ∀ side ∈ start :: sides, side = none := by
    intro sides
    induction sides with
    | nil => simp
    | cons side rest ih =>
      intro start none
      have met := ih _ none
      have both := isSome_intersect start side
      cases start <;> cases side <;> simp_all
  intro port member
  have all := folded _ _ absent
  rcases mem_cons.mp member with rfl | inside
  · exact all _ mem_cons_self
  · exact all _ (mem_cons_of_mem _ (mem_map_of_mem inside))

theorem checkRange_settles (name : String) (lhs rhs : Candidates) [Nonempty Bound]
    (dimension : PortCapability → Option (Range Bound)) :
    Settles (checkRange output consumerNames name lhs rhs (commonRange output inputs dimension))
      (RangeConflict output inputs dimension)
      (fun _ => RangeAgreed output inputs dimension (commonRange output inputs dimension)) := by
  unfold RangeConflict
  simp only [← commonRange_in]
  cases common : commonRange output inputs dimension with
  | none =>
    refine ⟨?_, commonRange_none common⟩
    intro nothing
    exact nothing ⟨Classical.arbitrary Bound, nofun⟩
  | some range =>
    simp only [checkRange]
    by_cases empty : Range.isEmpty range = true
    · rw [if_pos empty]
      exact (isEmpty_iff range).mp empty
    · rw [if_neg empty]
      refine ⟨fun nothing => empty ((isEmpty_iff range).mpr nothing), ?_, ?_⟩
      · simpa [Range.isEmpty] using empty
      · intro value low high
        refine (commonRange_in dimension value).mp ?_
        rw [common]
        rintro _ ⟨⟩
        exact ⟨low, high⟩

end Ranges

variable (pref : PreferenceSet)

theorem dimension_settles (name : String) (lhs rhs : Candidates)
    (dimension : PortCapability → Option FormatSet) :
    Settles (checkSet output consumerNames name lhs rhs (commonSet output inputs dimension))
      (SetConflict output inputs dimension)
      (fun _ => SetAgreed output inputs dimension ((commonSet output inputs dimension).map
        fun set => chooseDeterministically set (pref.of name) none)) := by
  refine settles_mono (settles_congr (checkSet_settles name lhs rhs _) (commonSet_empty dimension)) ?_
  intro _ present
  exact setAgreed_map present fun set nonempty => choose_mem nonempty _ _

theorem mandatory_settles (name : String) (lhs rhs : Candidates)
    (dimension : PortCapability → Option FormatSet) :
    Settles (requireSet output consumerNames name lhs rhs (commonSet output inputs dimension))
      (MandatoryConflict output inputs dimension)
      (fun set => ∀ priority, CommonIn output inputs dimension
        (chooseDeterministically set (pref.of name) priority)) := by
  refine settles_mono (settles_congr (requireSet_settles name lhs rhs _)
    (commonSet_unsettled dimension)) ?_
  rintro set ⟨common, nonempty⟩ priority
  exact common_of_mem common (choose_mem nonempty _ _)

theorem negotiateVideo_settles : Settles (negotiateVideo output inputs pref consumerNames)
    (VideoConflict output inputs) (VideoAgreed output inputs) := by
  unfold negotiateVideo VideoConflict
  refine settles_bind (mandatory_settles pref ..) fun formats chosen => ?_
  refine settles_bind (checkRange_settles ..) fun _ widths => ?_
  refine settles_bind (checkRange_settles ..) fun _ heights => ?_
  refine settles_bind (checkRange_settles ..) fun _ rates => ?_
  refine settles_bind (dimension_settles pref ..) fun _ spaces => ?_
  refine settles_bind (dimension_settles pref ..) fun _ ranges => ?_
  refine settles_map (dimension_settles pref ..) fun _ modes => ?_
  exact ⟨chosen _, widths, heights, rates, spaces, ranges, modes⟩

theorem negotiateAudio_settles : Settles (negotiateAudio output inputs pref consumerNames)
    (AudioConflict output inputs) (AudioAgreed output inputs) := by
  unfold negotiateAudio AudioConflict
  refine settles_bind (mandatory_settles pref ..) fun formats chosen => ?_
  refine settles_bind (checkRange_settles ..) fun _ rates => ?_
  refine settles_map (dimension_settles pref ..) fun _ common => ?_
  exact ⟨chosen _, rates, common⟩

/-! Shapes. -/

theorem dimAccepts_intersect (common other : IntRange) (size : Int) :
    DimAccepts (intersectDim common other) size ↔ DimAccepts common size ∧ DimAccepts other size := by
  unfold DimAccepts intersectDim
  dsimp only
  split
  · omega
  · split <;> omega

theorem dim_nonempty (range : IntRange) :
    (∃ size, DimAccepts range size) ↔ ¬ (0 ≤ range.max ∧ range.max < range.min) := by
  unfold DimAccepts
  constructor
  · rintro ⟨size, low, high⟩
    omega
  · intro fine
    exact ⟨range.min, by omega⟩

def Open (dims : List IntRange) : Prop := ∀ range ∈ dims, ∃ size, DimAccepts range size

theorem exists_sizes (nonempty : Open dims) : ∃ sizes, List.Forall₂ DimAccepts dims sizes := by
  induction dims with
  | nil => exact ⟨[], .nil⟩
  | cons range rest ih =>
    obtain ⟨first, later⟩ := forall_mem_cons.mp nonempty
    obtain ⟨size, accepted⟩ := first
    obtain ⟨sizes, others⟩ := ih later
    exact ⟨size :: sizes, .cons accepted others⟩

theorem open_of_accepts {sizes : List Int} (accepted : List.Forall₂ DimAccepts dims sizes) :
    Open dims := by
  induction accepted with
  | nil => exact nofun
  | cons first _ ih => exact forall_mem_cons.mpr ⟨⟨_, first⟩, ih⟩

theorem intersectDims_settles (index : Nat) (rank : common.length = other.length) :
    Settles (intersectDims output consumerNames index common other)
      (¬ ∃ sizes, List.Forall₂ DimAccepts common sizes ∧ List.Forall₂ DimAccepts other sizes)
      (fun met => Open met ∧ met.length = common.length ∧
        ∀ sizes, List.Forall₂ DimAccepts met sizes ↔
          List.Forall₂ DimAccepts common sizes ∧ List.Forall₂ DimAccepts other sizes) := by
  induction common generalizing other index with
  | nil =>
    obtain rfl := length_eq_zero_iff.mp rank.symm
    exact ⟨not_not.mpr ⟨[], .nil, .nil⟩, nofun, rfl, by simp⟩
  | cons range rest ih =>
    cases other with
    | nil => cases rank
    | cons second others =>
      have tail := ih (index + 1) (Nat.succ.inj rank)
      unfold intersectDims
      dsimp only
      split
      · next empty =>
          -- No size fits this dimension, so no list of sizes fits the shape.
          rintro ⟨sizes, first, both⟩
          cases first with
          | cons accepted _ =>
            cases both with
            | cons also _ =>
              exact (dim_nonempty _).mp
                ⟨_, (dimAccepts_intersect _ _ _).mpr ⟨accepted, also⟩⟩ empty
      · next fits =>
          obtain ⟨size, accepted⟩ := (dim_nonempty _).mpr fits
          have both := (dimAccepts_intersect _ _ _).mp accepted
          refine settles_congr (settles_map tail ?_) ?_
          · rintro met ⟨nonempty, length, same⟩
            refine ⟨forall_mem_cons.mpr ⟨⟨size, accepted⟩, nonempty⟩, by simp [length], ?_⟩
            intro sizes
            cases sizes with
            | nil => simp
            | cons head rest =>
              simp only [forall₂_cons, dimAccepts_intersect, same]
              tauto
          · refine not_congr ⟨?_, ?_⟩
            · rintro ⟨sizes, first, second⟩
              exact ⟨size :: sizes, .cons both.1 first, .cons both.2 second⟩
            · rintro ⟨sizes, first, second⟩
              cases first with
              | cons _ firsts =>
                cases second with
                | cons _ seconds => exact ⟨_, firsts, seconds⟩

/-- What intersecting declared shapes has come to. -/
structure ShapesMet (sides : List (List IntRange)) (met : List IntRange) : Prop where
  nonempty : Open met
  present : met ≠ []
  same : ∀ sizes, List.Forall₂ DimAccepts met sizes ↔
    ∀ side ∈ sides, List.Forall₂ DimAccepts side sizes

theorem intersectShapes_settles (commonDeclared : common ≠ []) (otherDeclared : other ≠ []) :
    Settles (intersectShapes output consumerNames common other)
      (¬ ∃ sizes, ∀ side ∈ [common, other], List.Forall₂ DimAccepts side sizes)
      (ShapesMet [common, other]) := by
  simp only [forall_mem_cons, not_mem_nil, false_imp_iff, implies_true, and_true]
  rw [intersectShapes, if_neg otherDeclared, if_neg commonDeclared]
  by_cases rank : common.length = other.length
  · rw [if_neg (not_not.mpr rank)]
    refine settles_mono (intersectDims_settles 0 rank) ?_
    rintro met ⟨nonempty, length, same⟩
    refine ⟨nonempty, ?_, fun sizes => by simp [same sizes]⟩
    rintro rfl
    exact commonDeclared (length_eq_zero_iff.mp length.symm)
  · rw [if_pos rank]
    rintro ⟨sizes, first, second⟩
    exact rank (first.length_eq.trans second.length_eq.symm)

/-- Bounds are compared whenever two declared shapes meet; one by itself has to be open. -/
theorem shapes_settle {others : List (List IntRange)} (commonDeclared : common ≠ [])
    (othersDeclared : ∀ other ∈ others, other ≠ []) (lone : others = [] → Open common) :
    Settles (others.foldlM (intersectShapes output consumerNames) common)
      (¬ ∃ sizes, ∀ side ∈ common :: others, List.Forall₂ DimAccepts side sizes)
      (ShapesMet (common :: others)) := by
  induction others generalizing common with
  | nil =>
    obtain ⟨sizes, accepted⟩ := exists_sizes (lone rfl)
    exact ⟨not_not.mpr ⟨sizes, by simpa using accepted⟩, lone rfl, commonDeclared, by simp⟩
  | cons other rest ih =>
    obtain ⟨otherDeclared, restDeclared⟩ := forall_mem_cons.mp othersDeclared
    have later : ∀ met, ShapesMet [common, other] met →
        Settles (rest.foldlM (intersectShapes output consumerNames) met)
          (¬ ∃ sizes, ∀ side ∈ common :: other :: rest, List.Forall₂ DimAccepts side sizes)
          (ShapesMet (common :: other :: rest)) := by
      intro met shapes
      have same : ∀ sizes, (∀ side ∈ met :: rest, List.Forall₂ DimAccepts side sizes) ↔
          ∀ side ∈ common :: other :: rest, List.Forall₂ DimAccepts side sizes := by
        intro sizes
        rw [forall_mem_cons, shapes.same sizes]
        simp [and_assoc]
      have step := ih shapes.present restDeclared fun _ => shapes.nonempty
      simp only [same] at step
      refine settles_mono step ?_
      rintro result ⟨nonempty, present, accepts⟩
      exact ⟨nonempty, present, fun sizes => (accepts sizes).trans (same sizes)⟩
    refine settles_congr (settles_bind
      (intersectShapes_settles commonDeclared otherDeclared) later) ⟨?_, .inr⟩
    rintro (first | all)
    · rintro ⟨sizes, accepted⟩
      simp only [forall_mem_cons] at accepted first
      exact first ⟨sizes, accepted.1, accepted.2.1, nofun⟩
    · exact all

def declaredShapes (output : PortCapability) (inputs : List PortCapability) :
    List (List IntRange) :=
  ((output :: inputs).map shape).filter (· ≠ [])

/-- One side alone declares a shape, and some dimension of it is empty. -/
def LoneEmpty (output : PortCapability) (inputs : List PortCapability) : Prop :=
  ∃ dims, declaredShapes output inputs = [dims] ∧ ¬ Open dims

theorem foldlM_declared (others : List (List IntRange)) :
    others.foldlM (intersectShapes output consumerNames) common =
      (others.filter (· ≠ [])).foldlM (intersectShapes output consumerNames) common := by
  induction others generalizing common with
  | nil => rfl
  | cons other rest ih =>
    by_cases undeclared : other = []
    · rw [filter_cons_of_neg (by simpa using undeclared), foldlM_cons, undeclared]
      exact ih
    · rw [filter_cons_of_pos (by simpa using undeclared), foldlM_cons, foldlM_cons]
      exact congrArg _ (funext fun met => ih)

theorem shapes_folded : (inputs.map shape).foldlM (intersectShapes output consumerNames)
    (shape output) = match declaredShapes output inputs with
      | [] => .ok []
      | first :: rest => rest.foldlM (intersectShapes output consumerNames) first := by
  rw [foldlM_declared, declaredShapes, map_cons]
  by_cases undeclared : shape output = []
  · rw [filter_cons_of_neg (by simpa using undeclared), undeclared]
    cases others : (inputs.map shape).filter (· ≠ []) with
    | nil => rfl
    | cons first rest =>
      have declared : first ≠ [] :=
        of_decide_eq_true (mem_filter.mp (others ▸ mem_cons_self : first ∈ _)).2
      rw [foldlM_cons, intersectShapes, if_neg declared, if_pos rfl]
      rfl
  · rw [filter_cons_of_pos (by simpa using undeclared)]

theorem shapeAccepts_all (sizes : List Int) :
    (∀ port ∈ output :: inputs, ShapeAccepts (shape port) sizes) ↔
      ∀ side ∈ declaredShapes output inputs, List.Forall₂ DimAccepts side sizes := by
  simp only [declaredShapes, mem_filter, mem_map, ShapeAccepts, or_iff_not_imp_left]
  constructor
  · rintro accepts _ ⟨⟨port, member, rfl⟩, declared⟩
    exact accepts port member (by simpa using declared)
  · exact fun accepts port member declared =>
      accepts _ ⟨⟨port, member, rfl⟩, by simpa using declared⟩

theorem shapes_agreed (fine : ¬ LoneEmpty output inputs) :
    Settles ((inputs.map shape).foldlM (intersectShapes output consumerNames) (shape output))
      (ShapeConflict output inputs) (ShapeAgreed output inputs) := by
  rw [shapes_folded, ShapeConflict]
  simp only [shapeAccepts_all]
  cases declared : declaredShapes output inputs with
  | nil =>
    have none : ∀ port ∈ output :: inputs, shape port = [] := by
      intro port member
      by_contra present
      have inside : shape port ∈ declaredShapes output inputs :=
        mem_filter.mpr ⟨mem_map_of_mem member, by simpa using present⟩
      rw [declared] at inside
      cases inside
    exact ⟨not_not.mpr ⟨[], nofun⟩, fun _ => none, nofun, fun _ _ port member =>
      .inl (none port member)⟩
  | cons first rest =>
    have present : ∀ side ∈ first :: rest, side ≠ [] := by
      intro side member
      rw [← declared] at member
      simpa using (mem_filter.mp member).2
    obtain ⟨firstDeclared, restDeclared⟩ := forall_mem_cons.mp present
    refine settles_mono (shapes_settle firstDeclared restDeclared ?_) ?_
    · rintro rfl
      by_contra empty
      exact fine ⟨first, declared, empty⟩
    · rintro met ⟨nonempty, chosen, same⟩
      refine ⟨fun none => absurd none chosen, nonempty, fun sizes accepted => ?_⟩
      rw [shapeAccepts_all, declared]
      exact (same sizes).mp accepted

theorem loneEmpty_passes (lone : LoneEmpty output inputs) :
    Settles ((inputs.map shape).foldlM (intersectShapes output consumerNames) (shape output))
      False (fun _ => True) := by
  obtain ⟨dims, declared, -⟩ := lone
  rw [shapes_folded, declared]
  exact ⟨id, trivial⟩

theorem loneEmpty_conflict (lone : LoneEmpty output inputs) : ShapeConflict output inputs := by
  obtain ⟨dims, declared, empty⟩ := lone
  rintro ⟨sizes, accepted⟩
  rw [shapeAccepts_all, declared, forall_mem_singleton] at accepted
  exact empty (open_of_accepts accepted)

theorem negotiateTensor_settles {shapes : Prop} {shaped : List IntRange → Prop}
    (settled : Settles ((inputs.map shape).foldlM (intersectShapes output consumerNames)
      (shape output)) shapes shaped) : Settles (negotiateTensor output inputs pref consumerNames)
      (TensorConflict output inputs shapes) (TensorAgreed output inputs shaped) := by
  unfold negotiateTensor TensorConflict
  refine settles_bind settled fun chosen met => ?_
  refine settles_bind (mandatory_settles pref ..) fun types dtype => ?_
  refine settles_map (dimension_settles pref ..) fun _ layout => ?_
  exact ⟨dtype _, layout, met⟩

/-! Memory. -/

theorem chooseOr_mem [DecidableEq Value] {preferred : Option Value} {common : List Value}
    {fallback : Value} (member : fallback ∈ common) :
    chooseOr preferred common fallback ∈ common := by
  unfold chooseOr
  split
  · split <;> assumption
  · exact member

theorem common_of_none [DecidableEq Value] (absent : commonSet output inputs dimension = none)
    (value : Value) : CommonIn output inputs dimension value :=
  (commonSet_in dimension value).mp (absent ▸ inSet_none value)

theorem negotiateMemory_settles : Settles (negotiateMemory output inputs pref consumerNames)
    (MemoryConflict output inputs) (fun chosen => MemoryAgreed output inputs chosen.1 chosen.2) := by
  unfold negotiateMemory MemoryConflict
  refine settles_bind (settles_congr (checkSet_settles ..) (commonSet_empty memoryKinds))
    fun _ kinds => ?_
  refine settles_map (settles_congr (checkSet_settles ..) (commonSet_empty deviceIds))
    fun _ devices => ?_
  refine ⟨?_, ?_, ?_⟩
  · cases common : commonSet output inputs memoryKinds with
    | none => exact common_of_none common _
    | some set =>
      cases set with
      | nil => exact absurd common kinds
      | cons first rest => exact common_of_mem common (chooseOr_mem mem_cons_self)
  · intro onDevice
    rw [if_pos onDevice]
    cases common : commonSet output inputs deviceIds with
    | none => exact common_of_none common _
    | some set =>
      cases set with
      | nil => exact absurd common devices
      | cons first rest =>
        refine common_of_mem common (chooseOr_mem ?_)
        exact min?_mem rfl
  · intro onHost
    rw [if_neg onHost]

/-! Sync policies. -/

theorem supportedSync_in (policy : SyncPolicy) :
    InSet (supportedSync inputs) policy ↔ Supported inputs policy := by
  rw [supportedSync, inSet_foldl, Supported]
  simp

theorem supportedSync_empty : supportedSync inputs = some [] ↔
    (∃ input ∈ inputs, input.sync.isSome = true) ∧ ¬ ∃ policy, Supported inputs policy := by
  rw [supportedSync, foldl_empty, Clash]
  simp [Supported]

variable (edgeSync : Option SyncPolicy)

theorem negotiateSync_settles : Settles (negotiateSync output inputs pref consumerNames edgeSync)
    (SyncConflict inputs pref edgeSync) (SyncAgreed inputs edgeSync) := by
  unfold negotiateSync SyncConflict
  refine settles_bind (settles_congr (checkSet_settles ..) supportedSync_empty)
    fun _ present => ?_
  have honoured : ∀ want, (edgeSync <|> pref.syncPolicy) = some want →
      ∀ other, edgeSync = some other → want = other := by
    rintro want wanted other rfl
    exact (Option.some.inj wanted).symm
  simp only [← supportedSync_in]
  cases wanted : edgeSync <|> pref.syncPolicy with
  | some want =>
    cases supported : supportedSync inputs with
    | none =>
      have fine : Supported inputs want := (supportedSync_in want).mp
        (supported ▸ inSet_none want)
      refine ⟨?_, fine, honoured want wanted⟩
      rintro ⟨other, -, refused⟩
      exact refused (inSet_none other)
    | some set =>
      dsimp only
      by_cases member : want ∈ set
      · rw [if_pos member]
        refine ⟨?_, (supportedSync_in want).mp (supported ▸ inSet_some.mpr member),
          honoured want wanted⟩
        rintro ⟨_, ⟨⟩, refused⟩
        exact refused (inSet_some.mpr member)
      · rw [if_neg member]
        exact ⟨want, rfl, fun accepted => member (inSet_some.mp accepted)⟩
  | none =>
    have absent : edgeSync = none := by
      cases edgeSync with
      | none => rfl
      | some want => cases wanted
    refine ⟨nofun, ?_, fun want some => by rw [absent] at some; cases some⟩
    refine (supportedSync_in _).mp ?_
    cases supported : supportedSync inputs with
    | none => exact inSet_none _
    | some set =>
      cases set with
      | nil => exact absurd supported present
      | cons first rest => exact inSet_some.mpr mem_cons_self

/-! The whole negotiation. -/

theorem checkInputs_settles (targets : ∀ input ∈ inputs, input.direction = .input) :
    Settles (checkInputs output consumerNames inputs)
      (∃ input ∈ inputs, input.typeTag ≠ output.typeTag)
      (fun _ => ∀ port ∈ output :: inputs, port.typeTag = output.typeTag) := by
  induction inputs with
  | nil => exact ⟨by simp, by simp⟩
  | cons input rest ih =>
    obtain ⟨isInput, later⟩ := forall_mem_cons.mp targets
    unfold checkInputs
    rw [if_neg (not_not.mpr isInput)]
    by_cases typed : input.typeTag = output.typeTag
    · rw [if_neg (not_not.mpr typed)]
      refine settles_mono (settles_congr (ih later) (by simp [typed])) ?_
      intro _ all
      simp only [forall_mem_cons] at all ⊢
      exact ⟨all.1, typed, all.2⟩
    · rw [if_pos typed]
      exact ⟨input, mem_cons_self, typed⟩

theorem applies_iff {Format : Type} (declared : PortCapability → Option Format) :
    applies output inputs (fun port => (declared port).isSome) = true ↔
      Applies output inputs declared := by
  simp [applies, Applies]

theorem whenever_settles {Format Chosen : Type} {declared : PortCapability → Option Format}
    {negotiate : Except Refusal Chosen} {conflicting : Prop} {agreed : Chosen → Prop}
    (group : Applies output inputs declared → Settles negotiate conflicting agreed) :
    Settles (whenever (applies output inputs fun port => (declared port).isSome) negotiate)
      (Applies output inputs declared ∧ conflicting)
      (GroupAgreed output inputs declared agreed) := by
  unfold whenever
  by_cases applicable : Applies output inputs declared
  · rw [if_pos ((applies_iff declared).mpr applicable)]
    exact settles_congr (settles_map (group applicable) fun chosen fine => ⟨applicable, fine⟩)
      (by simp [applicable])
  · rw [if_neg (fun holds => applicable ((applies_iff declared).mp holds))]
    exact ⟨fun conflict => applicable conflict.1, applicable⟩

theorem negotiateUncached_settles {shapes : Prop} {shaped : List IntRange → Prop}
    (source : output.direction = .output) (targets : ∀ input ∈ inputs, input.direction = .input)
    (settled : Applies output inputs tensor → Settles ((inputs.map shape).foldlM
      (intersectShapes output consumerNames) (shape output)) shapes shaped) :
    Settles (negotiateUncached output inputs pref consumerNames edgeSync)
      (Conflicting output inputs pref edgeSync shapes) (Agreed output inputs edgeSync shaped) := by
  unfold negotiateUncached Conflicting
  rw [if_neg (not_not.mpr source)]
  refine settles_bind (checkInputs_settles targets) fun _ typed => ?_
  refine settles_bind (whenever_settles fun _ => negotiateVideo_settles pref)
    fun video videoAgreed => ?_
  refine settles_bind (whenever_settles fun _ => negotiateAudio_settles pref)
    fun audio audioAgreed => ?_
  refine settles_bind (whenever_settles fun applies => negotiateTensor_settles pref
    (settled applies)) fun tensor tensorAgreed => ?_
  refine settles_bind (negotiateMemory_settles pref) fun memory memoryAgreed => ?_
  refine settles_map (negotiateSync_settles pref edgeSync) fun policy syncAgreed => ?_
  exact ⟨typed, videoAgreed, audioAgreed, tensorAgreed, memoryAgreed, syncAgreed⟩

end Steps

def Parsed (asNumber : JsonValue → Rat) (direction : PortDirection) (port : PortCapability) : Prop :=
  ∃ value path allowUnknown, parsePort asNumber value path direction allowUnknown = .ok port

theorem settles_conflict {Value : Type} {run : Except Refusal Value} {conflicting : Prop}
    {good : Value → Prop} (settles : Settles run conflicting good) :
    (∀ value, run = .ok value → good value) ∧
      ((∃ found, run = .error (.conflict found)) ↔ conflicting) := by
  match run, settles with
  | .ok value, ⟨fine, agreed⟩ =>
    refine ⟨?_, ?_, fun conflicting => absurd conflicting fine⟩
    · rintro _ ⟨⟩
      exact agreed
    · rintro ⟨_, ⟨⟩⟩
  | .error (.conflict found), conflicting =>
    exact ⟨nofun, fun _ => conflicting, fun _ => ⟨found, rfl⟩⟩

/-- Negotiating parsed ports: a contract agrees with every side, and a conflict is returned exactly
when some applicable dimension cannot be settled. This holds exactly when no side alone declares a
shape with an empty dimension that applies, or another dimension conflicts. -/
theorem negotiation_settles_iff (asNumber : JsonValue → Rat) {output : PortCapability}
    {inputs : List PortCapability} (pref : PreferenceSet) (edgeSync : Option SyncPolicy)
    (consumerNames : List String) (source : Parsed asNumber .output output)
    (targets : ∀ input ∈ inputs, Parsed asNumber .input input) :
    ((∀ contract, negotiateUncached output inputs pref consumerNames edgeSync = .ok contract →
        Agreed output inputs edgeSync (ShapeAgreed output inputs) contract) ∧
      ((∃ found, negotiateUncached output inputs pref consumerNames edgeSync =
        .error (.conflict found)) ↔
          Conflicting output inputs pref edgeSync (ShapeConflict output inputs))) ↔
    (LoneEmpty output inputs → Applies output inputs tensor →
      Conflicting output inputs pref edgeSync False) := by
  obtain ⟨_, _, _, parsed⟩ := source
  have aimed : ∀ input ∈ inputs, input.direction = .input := fun input member => by
    obtain ⟨_, _, _, parsed⟩ := targets input member
    exact parsePort_direction asNumber parsed
  have settles := fun {shapes shaped} => @negotiateUncached_settles output inputs consumerNames pref
    edgeSync shapes shaped (parsePort_direction asNumber parsed) aimed
  by_cases lone : LoneEmpty output inputs ∧ Applies output inputs tensor
  · obtain ⟨-, passes⟩ := settles_conflict (settles fun _ => loneEmpty_passes lone.1)
    have conflict : Conflicting output inputs pref edgeSync (ShapeConflict output inputs) :=
      .inr (.inr (.inr (.inl ⟨lone.2, .inl (loneEmpty_conflict lone.1)⟩)))
    constructor
    · exact fun holds _ _ => passes.mp (holds.2.mpr conflict)
    · intro elsewhere
      obtain ⟨found, refused⟩ := passes.mpr (elsewhere lone.1 lone.2)
      refine ⟨fun contract done => ?_, fun _ => conflict, fun _ => ⟨found, refused⟩⟩
      cases refused.symm.trans done
  · refine iff_of_true (settles_conflict (settles fun applies => ?_)) fun empty applies =>
      absurd ⟨empty, applies⟩ lone
    exact shapes_agreed fun empty => lone ⟨empty, applies⟩

/-! Two tensor ports of one element type, the output with one dimension. -/

def tensorJson (name : String) (shape : List JsonValue) : JsonValue :=
  .object [("name", .string name), ("tensor", .object [("dtypes", .array [.string "float32"]),
    ("shape", .array shape)]), ("type_tag", .string "Tensor")]

def dimJson (min max : Int) : JsonValue := .object [("max", .integer max), ("min", .integer min)]

def tensorPort (name : String) (direction : PortDirection) (shape : List IntRange) :
    PortCapability where
  name := name
  direction := direction
  typeTag := "Tensor"
  tensor := some { dtypes := some ["float32"], shape := shape }

theorem tensorPort_parsed (asNumber : JsonValue → Rat) (direction : PortDirection) (min max : Int) :
    Parsed asNumber direction (tensorPort "t" direction [⟨min, max⟩]) :=
  ⟨tensorJson "t" [dimJson min max], "ports[0]", false, rfl⟩

theorem plainPort_parsed (asNumber : JsonValue → Rat) (direction : PortDirection) :
    Parsed asNumber direction (tensorPort "t" direction []) :=
  ⟨tensorJson "t" [], "ports[0]", false, rfl⟩

/-- A dimension whose maximum is below its minimum passes unchecked when no other
side declares a shape. -/
theorem empty_dimension_agreed : ∃ output input contract,
    (∀ asNumber, Parsed asNumber .output output ∧ Parsed asNumber .input input) ∧
    negotiateUncached output [input] {} [] none = .ok contract ∧
    ¬ Agreed output [input] none (ShapeAgreed output [input]) contract ∧
    Conflicting output [input] {} none (ShapeConflict output [input]) := by
  have empty : ¬ Open [⟨5, 3⟩] := fun nonempty =>
    (dim_nonempty _).mp (nonempty _ mem_cons_self) (by decide)
  refine ⟨tensorPort "t" .output [⟨5, 3⟩], tensorPort "t" .input [], _,
    fun asNumber => ⟨tensorPort_parsed asNumber .output 5 3, plainPort_parsed asNumber .input⟩,
    rfl, fun agreed => empty agreed.tensor.2.shape.nonempty, ?_⟩
  exact .inr (.inr (.inr (.inl ⟨⟨by decide, _, mem_cons_self, rfl⟩,
    .inl (loneEmpty_conflict ⟨_, rfl, empty⟩)⟩)))

/-- An empty dimension is found when another side declares the shape. -/
theorem empty_dimension_refused : ∃ found,
    negotiateUncached (tensorPort "t" .output [⟨5, 3⟩]) [tensorPort "t" .input [⟨0, -1⟩]] {} []
      none = .error (.conflict found) := by
  refine ((negotiation_settles_iff (fun _ => 0) {} none [] (tensorPort_parsed _ .output 5 3)
    (forall_mem_singleton.mpr (tensorPort_parsed _ .input 0 (-1)))).mpr ?_).2.mpr ?_
  · rintro ⟨dims, two, -⟩ -
    exact nomatch (congrArg length two : 2 = 1)
  · refine .inr (.inr (.inr (.inl ⟨⟨by decide, _, mem_cons_self, rfl⟩, .inl ?_⟩)))
    rintro ⟨sizes, accepted⟩
    rcases accepted _ mem_cons_self with none | dims
    · cases none
    · exact (dim_nonempty _).mp (open_of_accepts dims _ mem_cons_self) (by decide)

end GraphEngine.NegotiatedContracts
