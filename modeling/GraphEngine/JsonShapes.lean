import GraphEngine.Fallible
import GraphEngine.JsonText

/-!
What the JSON parser can return: objects in key order, integers of 64 bits, no deeper than the
levels it was given. A parser with more levels reads the same; so a serialised value is parsed
exactly when it nests within the limit.
-/

namespace GraphEngine.JsonShapes

open Values OrderedMaps JsonText Fallible

variable {items : List JsonValue} {fields : JsonObject}

section Nesting

variable {bound : Nat}

theorem depthItems_le : depthItems items ≤ bound ↔ ∀ item ∈ items, depth item ≤ bound := by
  induction items with
  | nil => simp [depthItems]
  | cons item rest ih => simp [depthItems, ih]

theorem depthFields_le : depthFields fields ≤ bound ↔ ∀ field ∈ fields, depth field.2 ≤ bound := by
  induction fields with
  | nil => simp [depthFields]
  | cons field rest ih => simp [depthFields, ih]

theorem depth_array_le : depth (.array items) ≤ bound + 1 ↔ ∀ item ∈ items, depth item ≤ bound := by
  rw [depth, Nat.add_le_add_iff_right, depthItems_le]

theorem depth_object_le :
    depth (.object fields) ≤ bound + 1 ↔ ∀ field ∈ fields, depth field.2 ≤ bound := by
  rw [depth, Nat.add_le_add_iff_right, depthFields_le]

end Nesting

section Shape

mutual
def Every (holds : JsonValue → Prop) : JsonValue → Prop
  | .array items => holds (.array items) ∧ EveryItem holds items
  | .object fields => holds (.object fields) ∧ EveryField holds fields
  | value => holds value

def EveryItem (holds : JsonValue → Prop) : List JsonValue → Prop
  | [] => True
  | item :: rest => Every holds item ∧ EveryItem holds rest

def EveryField (holds : JsonValue → Prop) : JsonObject → Prop
  | [] => True
  | (_, value) :: rest => Every holds value ∧ EveryField holds rest
end

/-- The invariants of the C++ types: `std::map` and `std::int64_t`. -/
def Fits : JsonValue → Prop
  | .integer value => -2 ^ 63 ≤ value ∧ value < 2 ^ 63
  | .object fields => Ordered fields
  | _ => True

def Exact : JsonValue → Prop
  | .number _ => False
  | _ => True

def Held : JsonValue → Prop := Every Fits

def Whole : JsonValue → Prop := Every Exact

mutual
theorem plain_of_held {value : JsonValue} (held : Held value) (whole : Whole value) :
    Plain value := by
  cases value with
  | null | bool _ | string _ => trivial
  | integer _ => exact held
  | number _ => exact whole
  | array items => exact plainItems_of_held held.2 whole.2
  | object fields => exact ⟨held.1, plainFields_of_held held.2 whole.2⟩

theorem plainItems_of_held {items : List JsonValue} (held : EveryItem Fits items)
    (whole : EveryItem Exact items) : PlainItems items := by
  cases items with
  | nil => trivial
  | cons item rest => exact ⟨plain_of_held held.1 whole.1, plainItems_of_held held.2 whole.2⟩

theorem plainFields_of_held {fields : JsonObject} (held : EveryField Fits fields)
    (whole : EveryField Exact fields) : PlainFields fields := by
  cases fields with
  | nil => trivial
  | cons field rest =>
    exact ⟨plain_of_held held.1 whole.1, plainFields_of_held held.2 whole.2⟩
end

variable {holds : JsonValue → Prop}

theorem everyItem_iff : EveryItem holds items ↔ ∀ item ∈ items, Every holds item := by
  induction items with
  | nil => simp [EveryItem]
  | cons item rest ih => simp [EveryItem, ih]

theorem everyField_iff : EveryField holds fields ↔ ∀ field ∈ fields, Every holds field.2 := by
  induction fields with
  | nil => simp [EveryField]
  | cons field rest ih => simp [EveryField, ih]

theorem plainItems_iff : PlainItems items ↔ ∀ item ∈ items, Plain item := by
  induction items with
  | nil => simp [PlainItems]
  | cons item rest ih => simp [PlainItems, ih]

theorem plainFields_iff : PlainFields fields ↔ ∀ field ∈ fields, Plain field.2 := by
  induction fields with
  | nil => simp [PlainFields]
  | cons field rest ih => simp [PlainFields, ih]

end Shape

variable {input after : Input} {floats : FloatFormat} {rounds levels : Nat}
  {good : JsonValue → Prop} {members : JsonObject} {value : JsonValue}

section Parsed

variable {parse wider : Input → Except String (JsonValue × Input)}

theorem parseItems_every (each : ∀ input value after, parse input = .ok (value, after) → good value)
    (before : ∀ item ∈ items, good item)
    (parsed : parseItems parse rounds items input = .ok (value, after)) :
    ∃ all, value = .array all ∧ ∀ item ∈ all, good item := by
  induction rounds generalizing items input with
  | zero => cases parsed
  | succ rounds ih =>
    obtain ⟨⟨item, behind⟩, read, parsed⟩ := bind_ok.mp parsed
    have extended : ∀ other ∈ items ++ [item], good other := by
      refine List.forall_mem_append.mpr ⟨before, List.forall_mem_singleton.mpr ?_⟩
      exact each _ _ _ read
    dsimp only at parsed
    split at parsed
    · cases parsed
    split_ifs at parsed with comma closing
    · exact ih extended parsed
    · cases parsed
      exact ⟨_, rfl, extended⟩
    · cases parsed

theorem parseFields_every
    (each : ∀ input value after, parse input = .ok (value, after) → good value)
    (ordered : Ordered members) (before : ∀ field ∈ members, good field.2)
    (parsed : parseFields parse rounds members input = .ok (value, after)) :
    ∃ all, value = .object all ∧ Ordered all ∧ ∀ field ∈ all, good field.2 := by
  induction rounds generalizing members input with
  | zero => cases parsed
  | succ rounds ih =>
    obtain ⟨_, parsed⟩ := guard_ok.mp parsed
    simp only [bind_ok] at parsed
    obtain ⟨⟨key, behindKey⟩, _, colon, _, ⟨item, behind⟩, read, parsed⟩ := parsed
    obtain ⟨_, parsed⟩ := guard_ok.mp parsed
    have extended : ∀ field ∈ emplace key item members, good field.2 := by
      intro field member
      rcases mem_emplace member with rfl | old
      · exact each _ _ _ read
      · exact before field old
    split at parsed
    · cases parsed
    split_ifs at parsed with comma closing
    · exact ih (emplace_ordered ordered) extended parsed
    · cases parsed
      exact ⟨_, rfl, emplace_ordered ordered, extended⟩
    · cases parsed

theorem saturate_fits (value : Int) : Fits (.integer (saturate value)) := by
  unfold saturate Fits
  omega

theorem parseNumber_held
    (parsed : parseNumber floats input = .ok (value, after)) : Held value ∧ depth value = 1 := by
  unfold parseNumber at parsed
  obtain ⟨_, parsed⟩ := guard_ok.mp parsed
  by_cases digits : numberBody input ≠ [] ∧ (numberBody input).all Char.isDigit
  · rw [if_pos digits] at parsed
    cases parsed
    exact ⟨saturate_fits _, rfl⟩
  · rw [if_neg digits] at parsed
    split at parsed
    · cases parsed
      exact ⟨trivial, rfl⟩
    · cases parsed

theorem parseValue_held (parsed : parseValue floats levels input = .ok (value, after)) :
    Held value ∧ depth value ≤ levels := by
  induction levels generalizing input after value with
  | zero => cases parsed
  | succ levels ih =>
    have scalar : ∀ {leaf : JsonValue}, depth leaf = 1 → depth leaf ≤ levels + 1 := by
      intro leaf flat
      omega
    rw [parseValue] at parsed
    split at parsed
    · cases parsed
    split_ifs at parsed
    · unfold parseObject at parsed
      obtain ⟨opened, _, parsed⟩ := bind_ok.mp parsed
      dsimp only at parsed
      split_ifs at parsed
      · cases parsed
        exact ⟨⟨ordered_nil, trivial⟩, scalar rfl⟩
      obtain ⟨all, rfl, ordered, each⟩ := parseFields_every (fun _ _ _ => ih)
        ordered_nil (by simp) parsed
      exact ⟨⟨ordered, everyField_iff.mpr fun field member => (each field member).1⟩,
        depth_object_le.mpr fun field member => (each field member).2⟩
    · unfold parseArray at parsed
      obtain ⟨opened, _, parsed⟩ := bind_ok.mp parsed
      dsimp only at parsed
      split_ifs at parsed
      · cases parsed
        exact ⟨⟨trivial, trivial⟩, scalar rfl⟩
      obtain ⟨all, rfl, each⟩ := parseItems_every (fun _ _ _ => ih) (by simp) parsed
      exact ⟨⟨trivial, everyItem_iff.mpr fun item member => (each item member).1⟩,
        depth_array_le.mpr fun item member => (each item member).2⟩
    · obtain ⟨⟨text, behind⟩, _, parsed⟩ := bind_ok.mp parsed
      cases parsed
      exact ⟨trivial, scalar rfl⟩
    iterate 3
      · obtain ⟨behind, _, parsed⟩ := bind_ok.mp parsed
        cases parsed
        exact ⟨trivial, scalar rfl⟩
    · obtain ⟨held, flat⟩ := parseNumber_held parsed
      exact ⟨held, scalar flat⟩

theorem parseJson_held {text : String}
    (parsed : parseJson floats text = .ok value) : Held value ∧ depth value ≤ maxDepth := by
  unfold parseJson at parsed
  obtain ⟨⟨read, behind⟩, inner, parsed⟩ := bind_ok.mp parsed
  dsimp only at parsed
  split_ifs at parsed
  cases parsed
  exact parseValue_held inner

end Parsed

variable {out : JsonValue × Input}

section Levels

variable {parse wider : Input → Except String (JsonValue × Input)}

theorem parseItems_mono (more : ∀ input out, parse input = .ok out → wider input = .ok out)
    (parsed : parseItems parse rounds items input = .ok out) :
    parseItems wider rounds items input = .ok out := by
  induction rounds generalizing items input with
  | zero => cases parsed
  | succ rounds ih =>
    obtain ⟨⟨item, behind⟩, read, parsed⟩ := bind_ok.mp parsed
    refine then_ok _ (more _ _ read) ?_
    dsimp only at parsed ⊢
    split at parsed
    · cases parsed
    split_ifs at parsed ⊢ with comma closing
    · exact ih parsed
    · exact parsed
    · exact parsed

theorem parseFields_mono (more : ∀ input out, parse input = .ok out → wider input = .ok out)
    (parsed : parseFields parse rounds members input = .ok out) :
    parseFields wider rounds members input = .ok out := by
  induction rounds generalizing members input with
  | zero => cases parsed
  | succ rounds ih =>
    obtain ⟨quoted, parsed⟩ := guard_ok.mp parsed
    simp only [bind_ok] at parsed
    obtain ⟨⟨key, behindKey⟩, named, colon, separated, ⟨item, behind⟩, read, parsed⟩ := parsed
    obtain ⟨fresh, parsed⟩ := guard_ok.mp parsed
    refine guard_ok.mpr ⟨quoted, then_ok _ named (bind_ok.mpr ⟨_, separated,
      bind_ok.mpr ⟨_, more _ _ read, guard_ok.mpr ⟨fresh, ?_⟩⟩⟩)⟩
    dsimp only at parsed ⊢
    split at parsed
    · cases parsed
    split_ifs at parsed ⊢ with comma closing
    · exact ih parsed
    · exact parsed
    · exact parsed

theorem parseValue_succ (parsed : parseValue floats levels input = .ok out) :
    parseValue floats (levels + 1) input = .ok out := by
  induction levels generalizing input out with
  | zero => cases parsed
  | succ levels ih =>
    rw [parseValue] at parsed ⊢
    split at parsed
    · cases parsed
    split_ifs at parsed ⊢
    · unfold parseObject at parsed ⊢
      obtain ⟨opened, consumed, parsed⟩ := bind_ok.mp parsed
      refine then_ok opened consumed ?_
      dsimp only at parsed ⊢
      split_ifs at parsed ⊢
      · exact parsed
      · exact parseFields_mono (fun _ _ => ih) parsed
    · unfold parseArray at parsed ⊢
      obtain ⟨opened, consumed, parsed⟩ := bind_ok.mp parsed
      refine then_ok opened consumed ?_
      dsimp only at parsed ⊢
      split_ifs at parsed ⊢
      · exact parsed
      · exact parseItems_mono (fun _ _ => ih) parsed
    all_goals exact parsed

theorem parseValue_mono {above : Nat} (parsed : parseValue floats levels input = .ok out)
    (enough : levels ≤ above) : parseValue floats above input = .ok out := by
  induction enough with
  | refl => exact parsed
  | step _ ih => exact parseValue_succ ih

/-- A serialised value is parsed exactly when it nests within the limit, and then to itself. -/
theorem parse_serialize_iff (floats : FloatFormat) {read : JsonValue} (plain : Plain value) :
    parseJson floats (serialize floats value) = .ok read ↔
      depth value ≤ maxDepth ∧ read = value := by
  constructor
  · intro parsed
    unfold parseJson at parsed
    obtain ⟨⟨inner, behind⟩, first, parsed⟩ := bind_ok.mp parsed
    dsimp only at parsed
    split_ifs at parsed
    cases parsed
    obtain ⟨after, whole⟩ := parseValue_serialize floats plain
      (le_max_left (depth value) maxDepth)
    rw [parseValue_mono first (le_max_right (depth value) maxDepth)] at whole
    cases whole
    exact ⟨(parseValue_held first).2, rfl⟩
  · rintro ⟨shallow, rfl⟩
    obtain ⟨after, whole⟩ := parseValue_serialize floats plain shallow
    simp only [parseJson, whole, bind, Except.bind, skipWhitespace_nil, if_true]

/-- Whatever text is accepted, its value, if it holds no doubles, is one of the C++ types, nests
within the limit, and survives being written and read again. -/
theorem parsed_text_stable {text : String} (parsed : parseJson floats text = .ok value)
    (whole : Whole value) : Plain value ∧ depth value ≤ maxDepth ∧
      parseJson floats (serialize floats value) = .ok value := by
  obtain ⟨held, shallow⟩ := parseJson_held parsed
  have plain := plain_of_held held whole
  exact ⟨plain, shallow, (parse_serialize_iff floats plain).mpr ⟨shallow, rfl⟩⟩

theorem spaced_text_stable : parseJson noFloats (serialize noFloats (.array [.null, .integer 7])) =
    .ok (.array [.null, .integer 7]) :=
  have parsed : parseJson noFloats " [null, 7]" = .ok (.array [.null, .integer 7]) := by decide
  (parsed_text_stable parsed (by simp [Whole, Every, EveryItem, Exact])).2.2

end Levels

end GraphEngine.JsonShapes
