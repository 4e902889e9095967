import GraphEngine.GraphSpecCodec

/-!
What a node or an edge that was read is like: everything that was taken from a parsed document
keeps the document's shape and is no deeper than its place in it.
-/

namespace GraphEngine.GraphSpecReading

open Values GraphSpecs OrderedMaps JsonText JsonShapes CapabilityParsing ObjectReader
open Fallible GraphSpecJson GraphSpecCodec

section Readers

variable {Value : Type}

/-- The reader of a parsed object that nests no deeper than `bound + 1` levels. -/
structure Sound (reader : ObjectReader) (bound : Nat) : Prop where
  held : Held (.object reader.fields)
  shallow : depth (.object reader.fields) ≤ bound + 1

variable {reader : ObjectReader} {bound : Nat} {key expected : String}

theorem openObject_sound {value : JsonValue} {path : String} {allowUnknown : Bool}
    (held : Held value) (shallow : depth value ≤ bound + 1)
    (opened : openObject value path allowUnknown = .ok reader) :
    Sound reader bound ∧ reader.path = path ∧ reader.allowUnknown = allowUnknown := by
  obtain ⟨fields, found, same⟩ := bind_ok.mp opened
  cases same
  cases value <;> simp [object?, demand] at found
  subst found
  exact ⟨⟨held, shallow⟩, rfl, rfl⟩

theorem Sound.get (sound : Sound reader bound) {value : JsonValue}
    (found : reader.get key = some value) : Held value ∧ depth value ≤ bound := by
  have member : (key, value) ∈ reader.fields := mem_of_find found
  exact ⟨everyField_iff.mp sound.held.2 _ member, depth_object_le.mp sound.shallow _ member⟩

theorem optional_ok {read : JsonValue → Option Value} {out : Option Value}
    (parsed : reader.optional key expected read = .ok out) {result : Value}
    (given : out = some result) : ∃ value, reader.get key = some value ∧ read value = some result := by
  unfold ObjectReader.optional at parsed
  subst given
  split at parsed
  · cases parsed
  rename_i value found
  split at parsed
  · cases parsed
  rename_i inner read
  cases parsed
  exact ⟨value, found, read⟩

theorem optionalInteger_ok (sound : Sound reader bound) {out : Option Int}
    (parsed : reader.optionalInteger key = .ok out) :
    ∀ number ∈ out, -2 ^ 63 ≤ number ∧ number < 2 ^ 63 := by
  intro number given
  obtain ⟨value, found, read⟩ := optional_ok parsed given
  have held := (sound.get found).1
  cases value <;> simp [integer?] at read
  subst read
  exact held

theorem optionalObject_ok (sound : Sound reader (bound + 1)) {out : Option JsonValue}
    (parsed : optionalObject reader key = .ok out) :
    (out.getD (.object [])).isObject = true ∧ Held (out.getD (.object [])) ∧
      depth (out.getD (.object [])) ≤ bound + 1 := by
  cases out with
  | none => exact ⟨rfl, ⟨ordered_nil, trivial⟩, Nat.le_add_left 1 bound⟩
  | some result =>
    obtain ⟨value, found, read⟩ := optional_ok parsed rfl
    obtain ⟨object, same⟩ := Option.ite_none_right_eq_some.mp read
    cases same
    exact ⟨object, sound.get found⟩

theorem parseStringMap_ordered {path : String} {fields : JsonObject}
    {entries : List (String × String)} (parsed : parseStringMap path fields = .ok entries) :
    Ordered entries := by
  refine foldlM_invariant Ordered ?_ parsed ordered_nil
  intro field _ before after assigned ordered
  obtain ⟨text, _, same⟩ := bind_ok.mp assigned
  cases same
  exact assign_ordered ordered

theorem fieldOr_ok {default out : Value} {parse : JsonValue → Result Value}
    (parsed : fieldOr reader key default parse = .ok out) :
    out = default ∨ ∃ value, reader.get key = some value ∧ parse value = .ok out := by
  unfold fieldOr at parsed
  split at parsed
  · cases parsed
    exact .inl rfl
  · rename_i value found
    exact .inr ⟨value, found, parsed⟩

theorem toInt32_range (value : Int) : -2 ^ 31 ≤ toInt32 value ∧ toInt32 value < 2 ^ 31 := by
  unfold toInt32
  have low := @Int.le_bmod value (2 ^ 32) (by decide)
  have high := @Int.bmod_lt value (2 ^ 32) (by decide)
  omega

end Readers

section Nodes

variable {value : JsonValue} {path : String} {allowUnknown : Bool} {bound : Nat}

theorem parseExecutor_device {executor : ExecutorSpec}
    (parsed : parseExecutor value path allowUnknown = .ok executor) :
    ∀ id ∈ executor.deviceId, executor.kind = .gpu ∧ -2 ^ 31 ≤ id ∧ id < 2 ^ 31 := by
  simp only [parseExecutor, bind_ok] at parsed
  obtain ⟨reader, _, text, _, kind, _, device, _, _, gpu, _, _, ⟨⟩⟩ := parsed
  intro id found
  obtain ⟨wide, given, rfl⟩ := Option.map_eq_some_iff.mp found
  exact ⟨ensure_ok gpu (Option.isSome_iff_exists.mpr ⟨wide, given⟩), toInt32_range wide⟩

variable {reader : ObjectReader}

theorem parseLabels_ordered {labels : List (String × String)}
    (parsed : parseLabels reader = .ok labels) : Ordered labels := by
  rcases fieldOr_ok parsed with rfl | ⟨given, _, parsed⟩
  · exact ordered_nil
  · obtain ⟨fields, _, parsed⟩ := bind_ok.mp parsed
    exact parseStringMap_ordered parsed

/-- A node that was read can be written, but for its doubles and a count that wrapped to zero. -/
theorem parseNode_ok {node : NodeSpec} (held : Held value) (shallow : depth value ≤ bound + 2)
    (parsed : parseNode value path allowUnknown = .ok node) :
    (node.parallelism ≠ 0 → Whole node.options → NodeWritable node) ∧
      depth node.options ≤ bound + 1 := by
  obtain ⟨reader, opened, parsed⟩ := bind_ok.mp parsed
  obtain ⟨sound, _⟩ := openObject_sound held shallow opened
  simp only [bind_ok] at parsed
  obtain ⟨id, _, text, _, op, named, executor, executed, parallelism, _, _, _, options, optioned,
    labels, labelled, _, _, ⟨⟩⟩ := parsed
  obtain ⟨object, optionsHeld, optionsShallow⟩ := optionalObject_ok sound optioned
  refine ⟨?_, optionsShallow⟩
  intro counted whole
  refine ⟨parseKey_parsed (demand_ok.mp named), object, plain_of_held optionsHeld whole,
    parseLabels_ordered labelled, counted, ?_⟩
  rcases fieldOr_ok executed with rfl | ⟨given, _, executed⟩
  · exact nofun
  · exact parseExecutor_device executed

theorem parseEndpoint_ok {key : String} {ref : PortRef}
    (parsed : parseEndpoint reader key = .ok ref) : parsePortRef ref.render = some ref := by
  obtain ⟨text, _, parsed⟩ := bind_ok.mp parsed
  have found := demand_ok.mp parsed
  rw [← (parsePortRef_eq_some.mp found).1]
  exact found

theorem toUInt64_range {number : Int} (positive : 0 < number) (high : number < 2 ^ 63) :
    toUInt64 number ≠ 0 ∧ (toUInt64 number).toNat < 2 ^ 63 := by
  have same : (toUInt64 number).toNat = number.toNat := by
    unfold toUInt64
    rw [UInt64.toNat_ofNat']
    omega
  refine ⟨?_, by omega⟩
  intro zero
  rw [zero] at same
  simp at same
  omega

theorem parseQueue_bytes {queue : QueueSpec} (held : Held value)
    (parsed : parseQueue value path allowUnknown = .ok queue) :
    ∀ bytes ∈ queue.maxPacketBytes, bytes ≠ 0 ∧ bytes.toNat < 2 ^ 63 := by
  obtain ⟨reader, opened, parsed⟩ := bind_ok.mp parsed
  obtain ⟨sound, _⟩ := openObject_sound held (Nat.le_succ (depth value)) opened
  simp only [bind_ok] at parsed
  obtain ⟨capacity, _, _, _, policy, _, maxBytes, bounded, _, positive, _, _, ⟨⟩⟩ := parsed
  intro bytes found
  obtain ⟨number, given, rfl⟩ := Option.map_eq_some_iff.mp found
  exact toUInt64_range (ensure_ok positive number given) (optionalInteger_ok sound bounded number given).2

theorem parseEdge_ok {edge : EdgeSpec} (held : Held value)
    (parsed : parseEdge value path allowUnknown = .ok edge) (counted : edge.queue.capacity ≠ 0) :
    EdgeWritable edge := by
  obtain ⟨reader, opened, parsed⟩ := bind_ok.mp parsed
  obtain ⟨sound, _⟩ := openObject_sound held (Nat.le_succ (depth value)) opened
  simp only [bind_ok] at parsed
  obtain ⟨id, _, fromPort, source, toPort, target, queue, queued, sync, _, feedback, _, _, _,
    parsed⟩ := parsed
  cases parsed
  refine ⟨parseEndpoint_ok source, parseEndpoint_ok target, counted, ?_⟩
  rcases fieldOr_ok queued with rfl | ⟨given, found, queued⟩
  · exact nofun
  · exact parseQueue_bytes (sound.get found).1 queued

end Nodes

end GraphEngine.GraphSpecReading
