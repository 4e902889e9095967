import GraphEngine.Capabilities
import GraphEngine.OrderedMaps

/-!
Reading a port capability from JSON: `ParsePort` in capability_json.cpp over the
`ObjectReader` of json_reader.h. A reader remembers which keys were asked for; here
`finish` is given that list. What double a JSON number stands for is a parameter.
-/

namespace GraphEngine.CapabilityParsing

open Values GraphSpecs Capabilities OrderedMaps

structure ObjectReader where
  fields : JsonObject
  path : String
  allowUnknown : Bool
  errorCode : StatusCode := .pluginManifestInvalid

namespace ObjectReader

def get (reader : ObjectReader) (key : String) : Option JsonValue := find key reader.fields

def error (reader : ObjectReader) (message : String) : Status := ⟨reader.errorCode, message, false, none⟩

def missing (reader : ObjectReader) (key : String) : Status :=
  reader.error s!"missing field '{key}' in {reader.path}"

def wrongType (reader : ObjectReader) (key expected : String) : Status :=
  reader.error s!"field '{key}' in {reader.path} must be {expected}"

def optional {Value : Type} (reader : ObjectReader) (key expected : String)
    (read : JsonValue → Option Value) : Result (Option Value) :=
  match reader.get key with
  | none => .ok none
  | some value =>
    match read value with
    | none => .error (reader.wrongType key expected)
    | some result => .ok (some result)

def require {Value : Type} (reader : ObjectReader) (key expected : String)
    (read : JsonValue → Option Value) : Result Value := do
  match ← reader.optional key expected read with
  | none => .error (reader.missing key)
  | some result => .ok result

def string? : JsonValue → Option String
  | .string value => some value
  | _ => none

def integer? : JsonValue → Option Int
  | .integer value => some value
  | _ => none

def bool? : JsonValue → Option Bool
  | .bool value => some value
  | _ => none

def array? : JsonValue → Option (List JsonValue)
  | .array values => some values
  | _ => none

def object? : JsonValue → Option JsonObject
  | .object fields => some fields
  | _ => none

def requireString (reader : ObjectReader) (key : String) : Result String :=
  reader.require key "string" string?

def optionalString (reader : ObjectReader) (key : String) : Result (Option String) :=
  reader.optional key "string" string?

def requireInteger (reader : ObjectReader) (key : String) : Result Int :=
  reader.require key "integer" integer?

def optionalInteger (reader : ObjectReader) (key : String) : Result (Option Int) :=
  reader.optional key "integer" integer?

def optionalBool (reader : ObjectReader) (key : String) : Result (Option Bool) :=
  reader.optional key "boolean" bool?

def optionalNumber (asNumber : JsonValue → Rat) (reader : ObjectReader) (key : String) :
    Result (Option Rat) :=
  reader.optional key "number" fun
    | .integer value => some (asNumber (.integer value))
    | .number bits => some (asNumber (.number bits))
    | _ => none

def optionalStringArray (reader : ObjectReader) (key : String) : Result (Option (List String)) := do
  match ← reader.optional key "array" array? with
  | none => .ok none
  | some values =>
    let items ← values.mapM fun item =>
      match string? item with
      | none => .error (reader.error s!"elements of '{key}' in {reader.path} must be strings")
      | some text => .ok text
    .ok (some items)

/-- The first field that nobody asked for is an error, unless unknown fields are
allowed. -/
def finish (reader : ObjectReader) (seen : List String) : Result Unit :=
  if reader.allowUnknown then .ok ()
  else
    match reader.fields.find? fun field => field.1 ∉ seen with
    | some (key, _) => .error (reader.error s!"unknown field '{key}' in {reader.path}")
    | none => .ok ()

end ObjectReader

open ObjectReader

def parseIntRange (reader : ObjectReader) (key : String) : Result (Option IntRange) := do
  match ← reader.optional key "object \x7bmin,max\x7d" object? with
  | none => .ok none
  | some fields =>
    let inner : ObjectReader := ⟨fields, reader.path ++ "." ++ key, false, .pluginManifestInvalid⟩
    let min ← inner.requireInteger "min"
    let max ← inner.requireInteger "max"
    inner.finish ["min", "max"]
    if max < min then .error (reader.error s!"{reader.path}.{key}: max < min")
    else .ok (some ⟨min, max⟩)

section Port

variable (asNumber : JsonValue → Rat)

def parseRationalRange (reader : ObjectReader) (key : String) : Result (Option RationalRange) := do
  match ← reader.optional key "object \x7bmin,max\x7d" object? with
  | none => .ok none
  | some fields =>
    let inner : ObjectReader := ⟨fields, reader.path ++ "." ++ key, false, .pluginManifestInvalid⟩
    let min ← inner.optionalNumber asNumber "min"
    let max ← inner.optionalNumber asNumber "max"
    match min, max with
    | some min, some max =>
      inner.finish ["min", "max"]
      if max < min then .error (reader.error s!"{reader.path}.{key}: max < min")
      else .ok (some ⟨min, max⟩)
    | _, _ => .error (inner.missing "min/max")

def nested {Value : Type} (reader : ObjectReader) (key : String)
    (read : ObjectReader → Result Value) : Result (Option Value) := do
  match ← reader.optional key "object" object? with
  | none => .ok none
  | some fields =>
    let value ← read ⟨fields, reader.path ++ "." ++ key, reader.allowUnknown, reader.errorCode⟩
    .ok (some value)

def parseVideo (reader : ObjectReader) : Result VideoConstraints := do
  let pixelFormats ← reader.optionalStringArray "pixel_formats"
  let width ← parseIntRange reader "width"
  let height ← parseIntRange reader "height"
  let fps ← parseRationalRange asNumber reader "fps"
  let colorSpaces ← reader.optionalStringArray "color_spaces"
  let colorRanges ← reader.optionalStringArray "color_ranges"
  let hdrModes ← reader.optionalStringArray "hdr_modes"
  reader.finish ["pixel_formats", "width", "height", "fps", "color_spaces", "color_ranges",
    "hdr_modes"]
  .ok ⟨pixelFormats, width, height, fps, colorSpaces, colorRanges, hdrModes⟩

def parseAudio (reader : ObjectReader) : Result AudioConstraints := do
  let sampleFormats ← reader.optionalStringArray "sample_formats"
  let sampleRate ← parseIntRange reader "sample_rate"
  let channelLayouts ← reader.optionalStringArray "channel_layouts"
  reader.finish ["sample_formats", "sample_rate", "channel_layouts"]
  .ok ⟨sampleFormats, sampleRate, channelLayouts⟩

/-- A dimension is a size or an object; an absent maximum means unbounded. Nothing
compares the two bounds. -/
def parseDim (reader : ObjectReader) : JsonValue → Result IntRange
  | .integer size => .ok ⟨size, size⟩
  | .object fields => do
      let inner : ObjectReader := ⟨fields, reader.path ++ ".shape[]", false, .pluginManifestInvalid⟩
      let min ← inner.requireInteger "min"
      let max ← inner.optionalInteger "max"
      inner.finish ["min", "max"]
      .ok ⟨min, max.getD (-1)⟩
  | _ => .error (reader.error
      (reader.path ++ ".shape elements must be integer or \x7bmin,max\x7d"))

def parseTensor (reader : ObjectReader) : Result TensorConstraints := do
  let dtypes ← reader.optionalStringArray "dtypes"
  let layouts ← reader.optionalStringArray "layouts"
  let shape ← match ← reader.optional "shape" "array" array? with
    | none => .ok []
    | some dims => dims.mapM (parseDim reader)
  reader.finish ["dtypes", "layouts", "shape"]
  .ok ⟨dtypes, layouts, shape⟩

def parseMemoryKind (name : String) : Option MemoryKind :=
  if name = "host" then some .host
  else if name = "pinned" then some .pinned
  else if name = "cuda_device" then some .cudaDevice
  else if name = "dmabuf" then some .dmaBuf
  else none

def parseSyncPolicy (name : String) : Option SyncPolicy :=
  if name = "aligned" then some .aligned
  else if name = "latest" then some .latest
  else if name = "any" then some .any
  else none

def parseNames {Value : Type} (reader : ObjectReader) (what path : String)
    (parse : String → Option Value) : Option (List String) → Result (Option (List Value))
  | none => .ok none
  | some names => do
      let values ← names.mapM fun name =>
        match parse name with
        | none => .error (reader.error s!"invalid {what} '{name}' in {path}")
        | some value => .ok value
      .ok (some values)

/-- Device ids are narrowed to 32 bits. -/
def parseDeviceIds (reader : ObjectReader) : Result (Option (List Int)) := do
  match ← reader.optional "device_ids" "array" array? with
  | none => .ok none
  | some ids =>
    let devices ← ids.mapM fun id =>
      match integer? id with
      | none => .error (reader.error (reader.path ++ ".device_ids must be integers"))
      | some value => .ok (value.bmod (2 ^ 32))
    .ok (some devices)

def parseMemory (path : String) (reader : ObjectReader) : Result MemoryConstraints := do
  let names ← reader.optionalStringArray "kinds"
  let kinds ← parseNames reader "memory kind" path parseMemoryKind names
  let deviceIds ← parseDeviceIds reader
  let zeroCopyRequired ← reader.optionalBool "zero_copy_required"
  reader.finish ["kinds", "device_ids", "zero_copy_required"]
  .ok ⟨kinds, deviceIds, zeroCopyRequired.getD false⟩

def parseCardinality (reader : ObjectReader) (path : String) :
    Option String → Result PortCardinality
  | none => .ok .single
  | some name =>
    if name = "" ∨ name = "single" then .ok .single
    else if name = "multi" then .ok .multi
    else .error (reader.error s!"invalid cardinality '{name}' in {path}")

def parsePort (value : JsonValue) (path : String) (direction : PortDirection)
    (allowUnknown : Bool) : Result PortCapability :=
  match object? value with
  | none => .error ⟨.pluginManifestInvalid, path ++ " must be an object", false, none⟩
  | some fields => do
      let reader : ObjectReader := ⟨fields, path, allowUnknown, .pluginManifestInvalid⟩
      let name ← reader.requireString "name"
      let typeTag ← reader.requireString "type_tag"
      let required ← reader.optionalBool "required"
      let cardinality ← parseCardinality reader path (← reader.optionalString "cardinality")
      let dynamicConsumers ← reader.optionalBool "dynamic_consumers"
      let video ← nested reader "video" (parseVideo asNumber)
      let audio ← nested reader "audio" parseAudio
      let tensor ← nested reader "tensor" parseTensor
      let memory ← nested reader "memory" (parseMemory path)
      let syncNames ← reader.optionalStringArray "sync"
      let sync ← parseNames reader "sync policy" path parseSyncPolicy syncNames
      reader.finish ["name", "type_tag", "required", "cardinality", "dynamic_consumers", "video",
        "audio", "tensor", "memory", "sync"]
      .ok {
        name := name
        direction := direction
        typeTag := typeTag
        required := required.getD true
        cardinality := cardinality
        dynamicConsumers := dynamicConsumers.getD false
        video := video
        audio := audio
        tensor := tensor
        memory := memory.getD {}
        sync := sync }

theorem parsePort_direction {value : JsonValue} {path : String} {direction : PortDirection}
    {allowUnknown : Bool} {port : PortCapability}
    (parsed : parsePort asNumber value path direction allowUnknown = .ok port) :
    port.direction = direction := by
  unfold parsePort at parsed
  split at parsed
  · cases parsed
  repeat obtain ⟨_, -, parsed⟩ := Fallible.bind_ok.mp parsed
  cases parsed
  rfl

end Port

end GraphEngine.CapabilityParsing
