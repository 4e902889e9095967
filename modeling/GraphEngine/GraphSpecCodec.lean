import GraphEngine.GraphSpecJson
import Mathlib.Data.List.TakeWhile

/-!
A node or an edge that is written is read back: what the reader finds in an object built field
by field, and what has to hold of a node or an edge for its fields to survive.
-/

namespace GraphEngine.GraphSpecCodec

open Values GraphSpecs OrderedMaps JsonText JsonShapes CapabilityParsing ObjectReader Option
open Fallible GraphSpecJson

variable {value : JsonValue}

section Built

variable {fields : List (String × Option JsonValue)}

def Each (holds : JsonValue → Prop) (fields : List (String × Option JsonValue)) : Prop :=
  ∀ field ∈ fields, ∀ value ∈ field.2, holds value

section Each

variable {holds : JsonValue → Prop} {key : String}

theorem each_nil : Each holds [] := nofun

theorem each_some (here : holds value) (rest : Each holds fields) :
    Each holds ((key, some value) :: fields) := by
  simpa [Each] using And.intro here rest

theorem each_map {Value : Type} {given : Option Value} {write : Value → JsonValue}
    (here : ∀ inner ∈ given, holds (write inner)) (rest : Each holds fields) :
    Each holds ((key, given.map write) :: fields) := by
  simpa [Each] using And.intro here rest

variable {check : Prop} [Decidable check]

theorem each_given (here : check → holds value) (rest : Each holds fields) :
    Each holds ((key, if check then some value else none) :: fields) := by
  by_cases given : check
  · rw [if_pos given]
    exact each_some (here given) rest
  · simpa [Each, given] using rest

theorem each_unless (here : ¬ check → holds value) (rest : Each holds fields) :
    Each holds ((key, if check then none else some value) :: fields) := by
  rw [← ite_not]
  exact each_given here rest

theorem each_written (each : Each holds fields) {field : String × JsonValue}
    (member : field ∈ emplaceAll fields []) : holds field.2 := by
  rcases mem_emplaceAll member with written | none
  · exact each _ written _ rfl
  · cases none

end Each

theorem plain_build (plain : Each Plain fields) : Plain (build fields) :=
  ⟨emplaceAll_ordered ordered_nil, plainFields_iff.mpr fun _ => each_written plain⟩

theorem depth_build_le {bound : Nat} (shallow : Each (depth · ≤ bound) fields) :
    depth (build fields) ≤ bound + 1 :=
  depth_object_le.mpr fun _ => each_written shallow

def entry (fields : List (String × Option JsonValue)) (key : String) : Option JsonValue :=
  fields.findSome? fun field => if key = field.1 then field.2 else none

@[simp]
theorem entry_nil (key : String) : entry [] key = none := rfl

@[simp]
theorem entry_cons (key other : String) (value : Option JsonValue) :
    entry ((other, value) :: fields) key =
      if key = other then value.or (entry fields key) else entry fields key := by
  unfold entry
  by_cases hit : key = other
  · cases value <;> simp [hit]
  · simp [hit]

theorem find_onto (start : JsonObject) (key : String) :
    find key (emplaceAll fields start) = (find key start).or (entry fields key) :=
  find_emplaceAll fields start key

theorem find_build (key : String) : find key (emplaceAll fields []) = entry fields key := by
  simp [find_onto, find]

theorem depth_entry_le {bound : Nat} (shallow : depth (build fields) ≤ bound + 1) {key : String}
    (written : entry fields key = some value) : depth value ≤ bound := by
  rw [← find_build] at written
  exact depth_object_le.mp shallow (key, value) (mem_of_find written)

end Built

section Reading

variable {Value : Type}

def reading (fields : List (String × Option JsonValue)) (path : String) (allowUnknown : Bool) :
    ObjectReader := ⟨emplaceAll fields [], path, allowUnknown, .graphInvalid⟩

variable {fields : List (String × Option JsonValue)} {path : String} {allowUnknown : Bool}

@[simp]
theorem openObject_build : openObject (build fields) path allowUnknown =
    .ok (reading fields path allowUnknown) := rfl

@[simp]
theorem get_reading (key : String) :
    (reading fields path allowUnknown).get key = entry fields key := find_build key

theorem finish_reading {seen : List String} (known : ∀ field ∈ fields, field.1 ∈ seen) :
    (reading fields path allowUnknown).finish seen = .ok () := by
  have all : (emplaceAll fields []).find? (fun field => field.1 ∉ seen) = none := by
    refine List.find?_eq_none.mpr ?_
    rintro ⟨key, value⟩ member
    rcases mem_emplaceAll member with written | empty
    · simpa using known _ written
    · cases empty
  unfold finish reading
  rw [all]
  exact ite_self _

variable {reader : ObjectReader} {key expected : String}

theorem optional_written {read : JsonValue → Option Value} {write : Value → JsonValue}
    (inverse : ∀ value, read (write value) = some value) {value : Option Value}
    (written : reader.get key = value.map write) : reader.optional key expected read = .ok value := by
  unfold ObjectReader.optional
  rw [written]
  cases value with
  | none => rfl
  | some value => simp [inverse]

theorem requireString_written {text : String} (written : reader.get key = some (.string text)) :
    reader.requireString key = .ok text := by
  simp [requireString, require, ObjectReader.optional, written, string?, bind, Except.bind]

theorem optionalString_written {text : Option String}
    (written : reader.get key = text.map .string) : reader.optionalString key = .ok text :=
  @optional_written _ _ _ _ string? _ (fun _ => rfl) _ written

theorem optionalInteger_written {number : Option Int}
    (written : reader.get key = number.map .integer) : reader.optionalInteger key = .ok number :=
  @optional_written _ _ _ _ integer? _ (fun _ => rfl) _ written

theorem optionalBool_written {flag : Option Bool} (written : reader.get key = flag.map .bool) :
    reader.optionalBool key = .ok flag :=
  @optional_written _ _ _ _ bool? _ (fun _ => rfl) _ written

theorem optionalObject_written {value : Option JsonValue}
    (objects : ∀ object ∈ value, object.isObject = true)
    (written : reader.get key = value) : optionalObject reader key = .ok value := by
  unfold optionalObject ObjectReader.optional
  cases value with
  | none => simp [written]
  | some object => simp [written, objects object rfl]

theorem written_object (object : value.isObject = true) :
    (∀ inner ∈ (if value.asObject ≠ [] then some value else none), inner.isObject = true) ∧
      (if value.asObject ≠ [] then some value else none).getD (.object []) = value := by
  constructor
  · intro inner member
    obtain ⟨_, same⟩ := ite_none_right_eq_some.mp member
    cases same
    exact object
  · by_cases empty : value.asObject = []
    · cases value <;> simp_all [JsonValue.isObject, JsonValue.asObject]
    · simp [empty]

theorem optionalEnum_written {parse : String → Option Value} {name : Value → String}
    {message : String → String} {value : Option Value}
    (written : reader.get key = value.map fun member => .string (name member))
    (inverse : ∀ value, parse (name value) = some value := by intro value; cases value <;> decide)
    (named : ∀ value, name value ≠ "" := by intro value; cases value <;> decide) :
    optionalEnum reader key parse message = .ok value := by
  have read : reader.optionalString key = .ok (value.map name) :=
    optionalString_written (by rw [written, map_map]; rfl)
  unfold optionalEnum
  rw [read]
  cases value with
  | none => rfl
  | some member => simp [bind, Except.bind, named, inverse, demand]

theorem require_array_written {items : List JsonValue}
    (written : reader.get key = some (.array items)) :
    reader.require key "array" array? = .ok items := by
  simp [require, ObjectReader.optional, written, array?, bind, Except.bind]

theorem fieldOr_absent {default : Value} {parse : JsonValue → Result Value}
    (absent : reader.get key = none) : fieldOr reader key default parse = .ok default := by
  rw [fieldOr, absent]

theorem fieldOr_written {default : Value} {parse : JsonValue → Result Value}
    (written : reader.get key = some value) : fieldOr reader key default parse = parse value := by
  rw [fieldOr, written]

theorem ensure_of {holds : Prop} [Decidable holds] (fact : holds) (message : String) :
    ensure holds message = .ok () := if_pos fact

theorem ensure_ok {holds : Prop} [Decidable holds] {message : String} {out : Unit}
    (passed : ensure holds message = .ok out) : holds := by
  unfold ensure at passed
  split_ifs at passed with fact
  exact fact

theorem demand_ok {Value : Type} {found : Option Value} {message : String} {value : Value} :
    demand found message = .ok value ↔ found = some value := by
  cases found <;> simp [demand]

theorem checkDocumentHeader_build {kind schemaId : String} {schemaVersion : Int} {flag : Bool}
    (kindWritten : entry fields "kind" = some (.string kind))
    (versionWritten : entry fields "schema_version" = some (.integer schemaVersion))
    (idWritten : entry fields "$id" = some (.string schemaId))
    (flagWritten : entry fields "allow_unknown_fields" = if flag then some (.bool true) else none) :
    checkDocumentHeader (build fields) kind schemaVersion schemaId = .ok flag := by
  refine then_ok (emplaceAll fields []) rfl ?_
  refine then_ok kind (by simp [find_build, kindWritten, string?, demand]) ?_
  refine then_ok () (ensure_of rfl _) ?_
  refine then_ok schemaVersion (by simp [find_build, versionWritten, integer?, demand]) ?_
  rw [if_neg (not_not.mpr rfl)]
  refine then_ok () ?_ ?_
  · simp [checkSchemaId, find_build, idWritten, string?, demand, ensure, bind, Except.bind]
  · rw [find_build, flagWritten]
    cases flag <;> rfl

end Reading

theorem splitFirst_eq_some {mark : Char} {text front behind : String} :
    splitFirst mark text = some (front, behind) ↔
      text = front ++ String.singleton mark ++ behind ∧ mark ∉ front.toList ∧ front ≠ "" ∧
        behind ≠ "" := by
  have empty : ∀ {word : String}, word = "" ↔ word.toList = [] := by
    intro word
    rw [← String.toList_inj]
    rfl
  have whole := List.takeWhile_append_dropWhile (p := fun c => decide (c ≠ mark)) (l := text.toList)
  unfold splitFirst
  constructor
  · intro found
    split at found
    · cases found
    rename_i c tail rest
    obtain ⟨filled, found⟩ := (ite_none_left_eq_some.mp found)
    cases found
    have first : c = mark := by
      have head := List.head?_dropWhile_not (fun c => decide (c ≠ mark)) text.toList
      rw [rest] at head
      simpa using head
    subst first
    rw [rest] at whole
    refine ⟨?_, ?_, ?_, ?_⟩
    · refine String.toList_inj.mp (whole.symm.trans ?_)
      simp
    · rw [String.toList_ofList]
      intro member
      simpa using List.mem_takeWhile_imp member
    · rw [Ne, empty, String.toList_ofList]
      exact fun none => filled (.inl none)
    · rw [Ne, empty, String.toList_ofList]
      exact fun none => filled (.inr none)
  · rintro ⟨rfl, absent, filled, behindFilled⟩
    have passes : ∀ c ∈ front.toList, decide (c ≠ mark) = true := by
      intro c member
      have other : c ≠ mark := by
        rintro rfl
        exact absent member
      simpa using other
    have split : (front ++ String.singleton mark ++ behind).toList =
        front.toList ++ mark :: behind.toList := by simp
    rw [split, List.takeWhile_append_of_pos passes, List.dropWhile_append_of_pos passes]
    simp [filled, behindFilled]

theorem parseKey_render {op : OperatorKey} : parseKey op.render = some op ↔
      '@' ∉ op.typeName.toList ∧ op.typeName ≠ "" ∧ op.semanticVersion ≠ "" := by
  obtain ⟨typeName, version⟩ := op
  have split := @splitFirst_eq_some '@' (OperatorKey.render ⟨typeName, version⟩) typeName version
  rw [and_iff_right (show OperatorKey.render ⟨typeName, version⟩ =
    typeName ++ String.singleton '@' ++ version from rfl)] at split
  rw [← split]
  simp [parseKey]

theorem parseKey_parsed {text : String} {op : OperatorKey} (parsed : parseKey text = some op) :
    parseKey op.render = some op := by
  obtain ⟨⟨front, behind⟩, split, rfl⟩ := map_eq_some_iff.mp parsed
  exact parseKey_render.mpr (splitFirst_eq_some.mp split).2

theorem parsePortRef_eq_some {text : String} {ref : PortRef} : parsePortRef text = some ref ↔
      text = ref.render ∧ '.' ∉ ref.nodeId.toList ∧ ref.nodeId ≠ "" ∧ ref.port ≠ "" ∧
        isValidStableId ref.nodeId = true := by
  obtain ⟨nodeId, port⟩ := ref
  have split := @splitFirst_eq_some '.' text nodeId port
  unfold parsePortRef
  constructor
  · intro parsed
    split at parsed
    · cases parsed
    rename_i front behind found
    split_ifs at parsed with valid
    cases parsed
    obtain ⟨whole, dotFree, filled, portFilled⟩ := split.mp found
    exact ⟨whole, dotFree, filled, portFilled, valid⟩
  · rintro ⟨whole, dotFree, filled, portFilled, valid⟩
    rw [split.mpr ⟨whole, dotFree, filled, portFilled⟩]
    exact if_pos valid

theorem parseExecutorKind_name (kind : ExecutorKind) :
    parseExecutorKind (executorKindName kind) = some kind := by
  cases kind <;> decide

theorem parseDropPolicy_name (policy : DropPolicy) :
    parseDropPolicy (dropPolicyName policy) = some policy := by
  cases policy <;> decide

theorem parseSyncPolicy_name (policy : SyncPolicy) :
    parseSyncPolicy (syncPolicyName policy) = some policy := by
  cases policy <;> decide

theorem toInt32_of_range {value : Int} (low : -2 ^ 31 ≤ value) (high : value < 2 ^ 31) :
    toInt32 value = value := by
  unfold toInt32
  exact Int.bmod_eq_of_le (by omega) (by omega)

theorem toUInt32_toNat (value : UInt32) : toUInt32 value.toNat = value := by
  have bound := value.toNat_lt
  unfold toUInt32
  rw [Int.emod_eq_of_lt (by omega) (by omega), Int.toNat_natCast, UInt32.ofNat_toNat]

theorem one_le_toNat {value : UInt32} (positive : value ≠ 0) : (1 : Int) ≤ value.toNat := by
  have nonzero : value.toNat ≠ 0 := fun zero => positive (UInt32.toNat_inj.mp zero)
  omega

theorem fromUInt64_of_range {value : UInt64} (small : value.toNat < 2 ^ 63) :
    fromUInt64 value = value.toNat := by
  unfold fromUInt64
  exact Int.bmod_eq_of_le (by omega) (by omega)

theorem toUInt64_toNat (value : UInt64) : toUInt64 value.toNat = value := by
  have bound := value.toNat_lt
  unfold toUInt64
  rw [Int.emod_eq_of_lt (by omega) (by omega), Int.toNat_natCast, UInt64.ofNat_toNat]

variable {entries : List (String × String)}

theorem parseStringMap_from (path : String) {front rest : List (String × String)}
    (ordered : Ordered (front ++ rest)) :
    (rest.map fun entry => (entry.1, JsonValue.string entry.2)).foldlM (assignText path) front =
      .ok (front ++ rest) := by
  induction rest generalizing front with
  | nil => simp [pure, Except.pure]
  | cons entry rest ih =>
    obtain ⟨key, text⟩ := entry
    have step : assignText path front (key, .string text) = .ok (front ++ [(key, text)]) :=
      congrArg Except.ok (assign_last (ordered_above ordered))
    rw [List.map_cons, List.foldlM_cons, step]
    refine (ih (by simpa using ordered)).trans ?_
    simp

theorem ordered_strings (ordered : Ordered entries) :
    Ordered (entries.map fun entry => (entry.1, JsonValue.string entry.2)) := by
  unfold Ordered keys at ordered ⊢
  simpa [Function.comp_def] using ordered

theorem stringMapJson_ordered (ordered : Ordered entries) :
    stringMapJson entries = .object (entries.map fun entry => (entry.1, .string entry.2)) := by
  have same := emplaceAll_ascending (ordered_strings ordered)
  rw [List.map_map] at same
  exact congrArg JsonValue.object same

theorem parseStringMap_written (path : String) (ordered : Ordered entries) :
    parseStringMap path (entries.map fun entry => (entry.1, .string entry.2)) = .ok entries :=
  parseStringMap_from path ordered

theorem each_string {holds : JsonValue → Prop} (here : ∀ text, holds (.string text)) :
    Each holds (entries.map fun entry => (entry.1, some (.string entry.2))) := by
  refine List.forall_mem_map.mpr fun entry _ value same => ?_
  cases same
  exact here entry.2

theorem plain_stringMap : Plain (stringMapJson entries) :=
  plain_build (each_string fun _ => trivial)

theorem depth_stringMap_le : depth (stringMapJson entries) ≤ 2 :=
  depth_build_le (each_string fun _ => le_rfl)

variable {executor : ExecutorSpec}

section Nodes

structure NodeWritable (node : NodeSpec) : Prop where
  op : parseKey node.op.render = some node.op
  object : node.options.isObject = true
  plain : Plain node.options
  labels : Ordered node.labels
  parallelism : node.parallelism ≠ 0
  device : ∀ id ∈ node.executor.deviceId, node.executor.kind = .gpu ∧ -2 ^ 31 ≤ id ∧ id < 2 ^ 31

variable {node : NodeSpec}

attribute [local simp] executorFields nodeFields

theorem parseExecutor_written
    (range : ∀ id ∈ executor.deviceId, executor.kind = .gpu ∧ -2 ^ 31 ≤ id ∧ id < 2 ^ 31)
    (path : String) (allowUnknown : Bool) :
    parseExecutor (build (executorFields executor)) path allowUnknown = .ok executor := by
  have gpu : executor.deviceId.isSome → executor.kind = .gpu := by
    intro given
    obtain ⟨id, found⟩ := isSome_iff_exists.mp given
    exact (range id found).1
  have device : executor.deviceId.map toInt32 = executor.deviceId := by
    cases found : executor.deviceId with
    | none => rfl
    | some id =>
      have bounds := (range id found).2
      rw [map_some, toInt32_of_range bounds.1 bounds.2]
  refine then_ok _ openObject_build ?_
  refine then_ok (some (executorKindName executor.kind)) (optionalString_written (by simp)) ?_
  refine then_ok executor.kind (by simp [parseExecutorKind_name, demand]) ?_
  refine then_ok executor.deviceId (optionalInteger_written (by simp)) ?_
  refine then_ok () (ensure_of gpu _) ?_
  refine then_ok () (finish_reading (by simp)) ?_
  rw [device]

section NodeWritten

variable (writable : NodeWritable node) (path : String) (allowUnknown : Bool)
include writable

theorem parseLabels_written :
    parseLabels (reading (nodeFields node) path allowUnknown) = .ok node.labels := by
  by_cases empty : node.labels = []
  · rw [empty]
    exact fieldOr_absent (by simp [empty])
  · refine (fieldOr_written (by simp [empty]; rfl)).trans ?_
    rw [stringMapJson_ordered writable.labels]
    exact parseStringMap_written _ writable.labels

theorem parsed_executor : fieldOr (reading (nodeFields node) path allowUnknown) "executor" {}
      (parseExecutor · path allowUnknown) = .ok node.executor := by
  by_cases given : node.executor.kind ≠ .auto ∨ node.executor.deviceId.isSome
  · refine (fieldOr_written (by simp [given]; rfl)).trans ?_
    exact parseExecutor_written writable.device path allowUnknown
  · have plain : node.executor = {} := by
      have parts := not_or.mp given
      have device : node.executor.deviceId = none := by simpa using parts.2
      calc node.executor = ⟨node.executor.kind, node.executor.deviceId⟩ := rfl
        _ = {} := by rw [not_not.mp parts.1, device]
    rw [plain]
    exact fieldOr_absent (by simp [given])

theorem parseNode_nodeJson : parseNode (nodeJson node) path allowUnknown = .ok node := by
  let parallelism := if node.parallelism ≠ 1 then some (node.parallelism.toNat : Int) else none
  have positive : ∀ count ∈ parallelism, 1 ≤ count := by
    intro count member
    obtain ⟨_, same⟩ := ite_none_right_eq_some.mp member
    cases same
    exact one_le_toNat writable.parallelism
  have slots : parallelism.elim 1 toUInt32 = node.parallelism := by
    by_cases one : node.parallelism = 1
    · simp [parallelism, one]
    · simp [parallelism, one, toUInt32_toNat]
  obtain ⟨objects, members⟩ := written_object writable.object
  refine then_ok _ openObject_build ?_
  refine then_ok node.id (requireString_written (by simp)) ?_
  refine then_ok node.op.render (requireString_written (by simp)) ?_
  refine then_ok node.op (by simp [parseOperatorKey, writable.op, demand]) ?_
  refine then_ok _ (parsed_executor writable path allowUnknown) ?_
  refine then_ok parallelism (optionalInteger_written (by
    simp [parallelism]; split_ifs <;> rfl)) ?_
  refine then_ok () (ensure_of positive _) ?_
  refine then_ok _ (optionalObject_written objects (by simp)) ?_
  refine then_ok _ (parseLabels_written writable path allowUnknown) ?_
  refine then_ok () (finish_reading (by simp)) ?_
  rw [slots, members]

end NodeWritten

theorem plain_executor
    (range : ∀ id ∈ executor.deviceId, executor.kind = .gpu ∧ -2 ^ 31 ≤ id ∧ id < 2 ^ 31) :
    Plain (build (executorFields executor)) := by
  refine plain_build (each_some trivial (each_map ?_ each_nil))
  intro id found
  have bounds := range id found
  exact ⟨by omega, by omega⟩

theorem each_nodeField {holds : JsonValue → Prop} (text : ∀ text, holds (.string text))
    (executor : holds (build (executorFields node.executor)))
    (parallelism : holds (.integer node.parallelism.toNat)) (options : holds node.options)
    (labels : holds (stringMapJson node.labels)) : Each holds (nodeFields node) := by
  refine each_some (text _) (each_some (text _) (each_given (fun _ => executor) ?_))
  exact each_given (fun _ => parallelism) (each_given (fun _ => options)
    (each_given (fun _ => labels) each_nil))

theorem plain_nodeJson (writable : NodeWritable node) : Plain (nodeJson node) := by
  have bound := node.parallelism.toNat_lt
  exact plain_build (each_nodeField (fun _ => trivial) (plain_executor writable.device)
    ⟨by omega, by omega⟩ writable.plain plain_stringMap)

theorem depth_executor_le (executor : ExecutorSpec) : depth (build (executorFields executor)) ≤ 2 :=
  depth_build_le (each_some le_rfl (each_map (fun _ _ => le_rfl) each_nil))

theorem depth_nodeJson_le {bound : Nat} (object : node.options.isObject = true) :
    depth (nodeJson node) ≤ bound + 3 ↔ depth node.options ≤ bound + 2 := by
  constructor
  · intro shallow
    by_cases empty : node.options.asObject = []
    · have flat : depth node.options = 1 := by
        cases found : node.options <;>
          simp_all [JsonValue.isObject, JsonValue.asObject, depth, depthFields]
      omega
    · exact depth_entry_le shallow (show entry (nodeFields node) "options" = some node.options by
        simp [empty])
  · intro shallow
    have flat : 1 ≤ bound + 2 := Nat.le_add_left 1 (bound + 1)
    have inner : 2 ≤ bound + 2 := Nat.le_add_left 2 bound
    exact depth_build_le (each_nodeField (fun _ => flat)
      ((depth_executor_le node.executor).trans inner) flat shallow (depth_stringMap_le.trans inner))

end Nodes

section Edges

structure EdgeWritable (edge : EdgeSpec) : Prop where
  fromPort : parsePortRef edge.fromPort.render = some edge.fromPort
  toPort : parsePortRef edge.toPort.render = some edge.toPort
  capacity : edge.queue.capacity ≠ 0
  bytes : ∀ bytes ∈ edge.queue.maxPacketBytes, bytes ≠ 0 ∧ bytes.toNat < 2 ^ 63

variable {edge : EdgeSpec}

attribute [local simp] queueFields edgeFields

theorem parseQueue_written (writable : EdgeWritable edge) (path : String) (allowUnknown : Bool) :
    parseQueue (build (queueFields edge.queue)) path allowUnknown = .ok edge.queue := by
  let bytes := edge.queue.maxPacketBytes.map fun bytes => fromUInt64 bytes
  have positive : ∀ count ∈ bytes, 0 < count := by
    intro count member
    obtain ⟨size, found, rfl⟩ := map_eq_some_iff.mp member
    obtain ⟨nonzero, small⟩ := writable.bytes size found
    have some : size.toNat ≠ 0 := fun zero => nonzero (UInt64.toNat_inj.mp zero)
    rw [fromUInt64_of_range small]
    omega
  have back : bytes.map toUInt64 = edge.queue.maxPacketBytes := by
    simp only [bytes]
    cases found : edge.queue.maxPacketBytes with
    | none => rfl
    | some size =>
      simp [fromUInt64_of_range (writable.bytes size found).2, toUInt64_toNat]
  have capacity : ∀ count ∈ some (edge.queue.capacity.toNat : Int), 1 ≤ count := by
    intro count member
    cases member
    exact one_le_toNat writable.capacity
  refine then_ok _ openObject_build ?_
  refine then_ok (some (edge.queue.capacity.toNat : Int)) (optionalInteger_written (by simp)) ?_
  refine then_ok () (ensure_of capacity _) ?_
  refine then_ok (some edge.queue.policy) (optionalEnum_written (by simp) parseDropPolicy_name) ?_
  refine then_ok bytes (optionalInteger_written (by
    simp [bytes, Function.comp_def])) ?_
  refine then_ok () (ensure_of positive _) ?_
  refine then_ok () (finish_reading (by simp)) ?_
  rw [back]
  simp [toUInt32_toNat]

theorem parsed_queue (writable : EdgeWritable edge) (path : String) (allowUnknown : Bool) :
    fieldOr (reading (edgeFields edge) path allowUnknown) "queue" {}
      (parseQueue · path allowUnknown) = .ok edge.queue := by
  by_cases plain : edge.queue = {}
  · rw [plain]
    exact fieldOr_absent (by simp [plain])
  · refine (fieldOr_written (by simp [plain]; rfl)).trans ?_
    exact parseQueue_written writable path allowUnknown

theorem parseEndpoint_written {reader : ObjectReader} {key : String} {ref : PortRef}
    (parses : parsePortRef ref.render = some ref)
    (written : reader.get key = some (.string ref.render)) :
    parseEndpoint reader key = .ok ref := by
  refine then_ok _ (requireString_written written) ?_
  simp [parses, demand]

theorem parseEdge_edgeJson (writable : EdgeWritable edge) (path : String) (allowUnknown : Bool) :
    parseEdge (edgeJson edge) path allowUnknown = .ok edge := by
  let id := if edge.id ≠ "" then some edge.id else none
  have named : id.getD "" = edge.id := by
    by_cases empty : edge.id = "" <;> simp [id, empty]
  let feedback := if edge.feedback then some true else none
  have flagged : feedback.getD false = edge.feedback := by
    cases found : edge.feedback <;> simp [feedback, found]
  refine then_ok _ openObject_build ?_
  refine then_ok id (optionalString_written (by
    simp [id]; split_ifs <;> rfl)) ?_
  refine then_ok _ (parseEndpoint_written writable.fromPort (by simp)) ?_
  refine then_ok _ (parseEndpoint_written writable.toPort (by simp)) ?_
  refine then_ok _ (parsed_queue writable path allowUnknown) ?_
  refine then_ok edge.sync (optionalEnum_written (by simp) parseSyncPolicy_name) ?_
  refine then_ok feedback (optionalBool_written (by
    simp [feedback])) ?_
  refine then_ok () (finish_reading (by simp)) ?_
  rw [named, flagged]

theorem plain_queue {queue : QueueSpec}
    (bytes : ∀ bytes ∈ queue.maxPacketBytes, bytes.toNat < 2 ^ 63) :
    Plain (build (queueFields queue)) := by
  have bound := queue.capacity.toNat_lt
  refine plain_build (each_some ⟨by omega, by omega⟩ (each_some trivial (each_map ?_ each_nil)))
  intro size found
  have small := bytes size found
  rw [fromUInt64_of_range small]
  exact ⟨by omega, by omega⟩

theorem depth_queue_le (queue : QueueSpec) : depth (build (queueFields queue)) ≤ 2 :=
  depth_build_le (each_some le_rfl (each_some le_rfl (each_map (fun _ _ => le_rfl) each_nil)))

theorem each_edgeField {holds : JsonValue → Prop} (text : ∀ text, holds (.string text))
    (queue : holds (build (queueFields edge.queue))) (feedback : holds (.bool true)) :
    Each holds (edgeFields edge) := by
  refine each_given (fun _ => text _) (each_some (text _) (each_some (text _) ?_))
  exact each_given (fun _ => queue) (each_map (fun _ _ => text _)
    (each_given (fun _ => feedback) each_nil))

theorem plain_edgeJson (bytes : ∀ bytes ∈ edge.queue.maxPacketBytes, bytes.toNat < 2 ^ 63) :
    Plain (edgeJson edge) :=
  plain_build (each_edgeField (fun _ => trivial) (plain_queue bytes) trivial)

theorem depth_edgeJson_le : depth (edgeJson edge) ≤ 3 :=
  depth_build_le (each_edgeField (fun _ => Nat.le_add_left 1 1) (depth_queue_le _)
    (Nat.le_add_left 1 1))

end Edges

end GraphEngine.GraphSpecCodec
