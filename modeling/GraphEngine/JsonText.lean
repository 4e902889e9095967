import Mathlib.Algebra.Ring.Int.Defs
import GraphEngine.Values
import GraphEngine.OrderedMaps

/-!
JSON text, after json.h and json.cpp. A text is a byte string; each character of the model
stands for one byte. How `%.17g` prints a double and how `strtod` reads one is a parameter.
-/

namespace GraphEngine.JsonText

open Values OrderedMaps
open List hiding keys

/-- `snprintf("%.17g")` and `strtod`; the scan gives nothing unless it reads the whole token. -/
structure FloatFormat where
  print : UInt64 → List Char
  scan : List Char → Option UInt64

def noFloats : FloatFormat := ⟨fun _ => [], fun _ => none⟩

/-- One byte of `AppendQuoted`. -/
def escape (c : Char) : List Char :=
  if c = '"' then ['\\', '"']
  else if c = '\\' then ['\\', '\\']
  else if c = '\x08' then ['\\', 'b']
  else if c = '\x0c' then ['\\', 'f']
  else if c = '\n' then ['\\', 'n']
  else if c = '\r' then ['\\', 'r']
  else if c = '\t' then ['\\', 't']
  else if c.toNat < 0x20 then
    ['\\', 'u', '0', '0', Nat.digitChar (c.toNat / 16), Nat.digitChar (c.toNat % 16)]
  else [c]

def quote (text : String) : List Char := '"' :: (text.toList.flatMap escape ++ ['"'])

/-- `std::to_string`. -/
def decimal (value : Int) : List Char :=
  if value < 0 then '-' :: Nat.toDigits 10 value.natAbs else Nat.toDigits 10 value.natAbs

mutual
def write (floats : FloatFormat) : JsonValue → List Char
  | .null => "null".toList
  | .bool value => if value then "true".toList else "false".toList
  | .integer value => decimal value
  | .number bits => floats.print bits
  | .string value => quote value
  | .array values => '[' :: (writeItems floats true values ++ [']'])
  | .object fields => '\x7b' :: (writeFields floats true fields ++ ['\x7d'])

def writeItems (floats : FloatFormat) (first : Bool) : List JsonValue → List Char
  | [] => []
  | item :: rest =>
    (if first then [] else [',']) ++ (write floats item ++ writeItems floats false rest)

def writeFields (floats : FloatFormat) (first : Bool) : JsonObject → List Char
  | [] => []
  | (key, value) :: rest =>
    (if first then [] else [',']) ++
      (quote key ++ ':' :: (write floats value ++ writeFields floats false rest))
end

def serialize (floats : FloatFormat) (value : JsonValue) : String :=
  String.ofList (write floats value)

section Parse

structure Input where
  rest : List Char
  position : Nat
  deriving DecidableEq

def Input.advance (input : Input) (count : Nat) : Input :=
  ⟨input.rest.drop count, input.position + count⟩

variable {Value : Type}

/-- `Fail`; every caller gives up at once, so the first error is the only one. -/
def fail (message : String) (input : Input) : Except String Value :=
  .error (message ++ " at offset " ++ toString input.position)

def isWhitespace (c : Char) : Bool := c = ' ' || c = '\n' || c = '\r' || c = '\t'

def skipWhitespace (input : Input) : Input :=
  input.advance (input.rest.takeWhile isWhitespace).length

def consume (literal : List Char) (input : Input) : Except String Input :=
  if input.rest.take literal.length = literal then .ok (input.advance literal.length)
  else fail "unexpected token" input

def isNumberChar (c : Char) : Bool :=
  c.isDigit || c = '.' || c = 'e' || c = 'E' || c = '+' || c = '-'

/-- `strtoll` keeps to the range of 64 bits. -/
def saturate (value : Int) : Int := max (-2 ^ 63) (min value (2 ^ 63 - 1))

def numberBody (input : Input) : List Char :=
  (if input.rest.head? = some '-' then input.rest.drop 1 else input.rest).takeWhile isNumberChar

def parseNumber (floats : FloatFormat) (input : Input) : Except String (JsonValue × Input) :=
  let negative := input.rest.head? = some '-'
  let body := numberBody input
  let token := if negative then '-' :: body else body
  let after := input.advance token.length
  if token = [] then fail "invalid number" input
  else if body ≠ [] ∧ body.all Char.isDigit then
    let magnitude : Int := Nat.ofDigitChars 10 body 0
    .ok (.integer (saturate (if negative then -magnitude else magnitude)), after)
  else
    -- not an integer, or a sign without digits, which `strtoll` leaves unread
    match floats.scan token with
    | some bits => .ok (.number bits, after)
    | none => fail "invalid number" after

/-- The characters `strtoul` skips. -/
def isSpaceChar (c : Char) : Bool := c = ' ' || (9 ≤ c.toNat && c.toNat ≤ 13)

def hexValue (c : Char) : Option Nat :=
  if c.isDigit then some (c.toNat - 48)
  else if 'a' ≤ c ∧ c ≤ 'f' then some (c.toNat - 87)
  else if 'A' ≤ c ∧ c ≤ 'F' then some (c.toNat - 55)
  else none

/-- The digits after an optional `0x`, which counts only before a digit. -/
def afterRadix : List Char → List Char
  | zero :: mark :: digit :: rest =>
    if zero = '0' ∧ (mark = 'x' ∨ mark = 'X') ∧ (hexValue digit).isSome then digit :: rest
    else zero :: mark :: digit :: rest
  | short => short

/-- `strtoul(hex, &end, 16)` cut to 32 bits, when it stops at the end of the C string. -/
def strtoul16 (hex : List Char) : Option UInt32 :=
  let text := hex.takeWhile (· ≠ '\x00')
  let signed := text.dropWhile isSpaceChar
  let negative := signed.head? = some '-'
  let unsigned := if negative ∨ signed.head? = some '+' then signed.drop 1 else signed
  let digits := afterRadix unsigned
  if text = [] then some 0
  else if digits ≠ [] ∧ digits.all fun c => (hexValue c).isSome then
    let value := digits.foldl (fun sum c => 16 * sum + (hexValue c).getD 0) 0
    some (if negative then -UInt32.ofNat value else UInt32.ofNat value)
  else none

def byteChar (value : UInt32) : Char := Char.ofNat (value.toNat % 256)

def appendUtf8 (code : UInt32) : List Char :=
  if code < 0x80 then [byteChar code]
  else if code < 0x800 then [byteChar ((0xC0 : UInt32) ||| (code >>> 6)),
    byteChar ((0x80 : UInt32) ||| (code &&& 0x3F))]
  else [byteChar ((0xE0 : UInt32) ||| (code >>> 12)),
    byteChar ((0x80 : UInt32) ||| ((code >>> 6) &&& 0x3F)),
    byteChar ((0x80 : UInt32) ||| (code &&& 0x3F))]

def unescape (c : Char) : Option Char :=
  if c = '"' then some '"'
  else if c = '\\' then some '\\'
  else if c = '/' then some '/'
  else if c = 'b' then some '\x08'
  else if c = 'f' then some '\x0c'
  else if c = 'n' then some '\n'
  else if c = 'r' then some '\r'
  else if c = 't' then some '\t'
  else none

/-- The loop of `ParseString`, after the opening quote. -/
def stringBody (position : Nat) (out : List Char) : List Char → Except String (String × Input)
  | [] => fail "unterminated string" ⟨[], position⟩
  | c :: rest =>
    if c = '"' then .ok (String.ofList out, ⟨rest, position + 1⟩)
    else if c = '\\' then
      match rest with
      | [] => fail "unterminated string" ⟨[], position + 1⟩
      | escaped :: more =>
        if escaped = 'u' then
          match more with
          | first :: second :: third :: fourth :: tail =>
            match strtoul16 [first, second, third, fourth] with
            | some code => stringBody (position + 6) (out ++ appendUtf8 code) tail
            | none => fail "invalid unicode escape" ⟨tail, position + 6⟩
          | short => fail "invalid unicode escape" ⟨short, position + 2⟩
        else
          match unescape escaped with
          | some plain => stringBody (position + 2) (out ++ [plain]) more
          | none => fail "invalid escape" ⟨more, position + 2⟩
    else stringBody (position + 1) (out ++ [c]) rest

def parseString (input : Input) : Except String (String × Input) := do
  let opened ← consume ['"'] input
  stringBody opened.position [] opened.rest

variable (parse : Input → Except String (JsonValue × Input))

/-- The loop of `ParseArray`. Every round consumes a value and a comma, so a round for every
character left and one more are enough. -/
def parseItems : Nat → List JsonValue → Input → Except String (JsonValue × Input)
  | 0, _, input => fail "unterminated array" input
  | rounds + 1, items, input => do
      let (item, behind) ← parse input
      let next := skipWhitespace behind
      match next.rest with
      | [] => fail "unterminated array" next
      | c :: _ =>
        if c = ',' then parseItems rounds (items ++ [item]) (next.advance 1)
        else if c = ']' then .ok (.array (items ++ [item]), next.advance 1)
        else fail "expected ',' or ']'" next

def parseArray (input : Input) : Except String (JsonValue × Input) := do
  let opened ← consume ['['] input
  let next := skipWhitespace opened
  if next.rest.head? = some ']' then .ok (.array [], next.advance 1)
  else parseItems parse (next.rest.length + 1) [] next

/-- The loop of `ParseObject`. -/
def parseFields : Nat → JsonObject → Input → Except String (JsonValue × Input)
  | 0, _, input => fail "unterminated object" input
  | rounds + 1, members, input => do
      let start := skipWhitespace input
      if start.rest.head? ≠ some '"' then fail "expected string key" start
      else
        let (key, behindKey) ← parseString start
        let colon ← consume [':'] (skipWhitespace behindKey)
        let (value, behind) ← parse colon
        if (find key members).isSome then fail "duplicate key" behind
        else
          let next := skipWhitespace behind
          match next.rest with
          | [] => fail "unterminated object" next
          | c :: _ =>
            if c = ',' then parseFields rounds (emplace key value members) (next.advance 1)
            else if c = '\x7d' then .ok (.object (emplace key value members), next.advance 1)
            else fail "expected ',' or '\x7d'" next

def parseObject (input : Input) : Except String (JsonValue × Input) := do
  let opened ← consume ['\x7b'] input
  let next := skipWhitespace opened
  if next.rest.head? = some '\x7d' then .ok (.object [], next.advance 1)
  else parseFields parse (next.rest.length + 1) [] next

/-- `kMaxDepth`. -/
def maxDepth : Nat := 256

/-- `ParseValue` with the levels of nesting that are left. -/
def parseValue (floats : FloatFormat) : Nat → Input → Except String (JsonValue × Input)
  | 0, input => fail "nesting too deep" input
  | levels + 1, input =>
    let start := skipWhitespace input
    match start.rest with
    | [] => fail "unexpected end of input" start
    | c :: _ =>
      if c = '\x7b' then parseObject (parseValue floats levels) start
      else if c = '[' then parseArray (parseValue floats levels) start
      else if c = '"' then do
        let (text, after) ← parseString start
        return (.string text, after)
      else if c = 't' then do
        let after ← consume "true".toList start
        return (.bool true, after)
      else if c = 'f' then do
        let after ← consume "false".toList start
        return (.bool false, after)
      else if c = 'n' then do
        let after ← consume "null".toList start
        return (.null, after)
      else parseNumber floats start

def parseJson (floats : FloatFormat) (text : String) : Except String JsonValue := do
  let (value, behind) ← parseValue floats maxDepth ⟨text.toList, 0⟩
  let input := skipWhitespace behind
  if input.rest = [] then .ok value
  else .error ("trailing characters at offset " ++ toString input.position)

end Parse

mutual
/-- A value a C++ program can hold, less the doubles: integers of 64 bits, objects as ordered
maps. -/
def Plain : JsonValue → Prop
  | .integer value => -2 ^ 63 ≤ value ∧ value < 2 ^ 63
  | .number _ => False
  | .array values => PlainItems values
  | .object fields => Ordered fields ∧ PlainFields fields
  | _ => True

def PlainItems : List JsonValue → Prop
  | [] => True
  | item :: rest => Plain item ∧ PlainItems rest

def PlainFields : JsonObject → Prop
  | [] => True
  | (_, value) :: rest => Plain value ∧ PlainFields rest
end

mutual
/-- Nesting as the parser counts it: a scalar is one level deep. -/
def depth : JsonValue → Nat
  | .array values => depthItems values + 1
  | .object fields => depthFields fields + 1
  | _ => 1

def depthItems : List JsonValue → Nat
  | [] => 0
  | item :: rest => max (depth item) (depthItems rest)

def depthFields : JsonObject → Nat
  | [] => 0
  | (_, value) :: rest => max (depth value) (depthFields rest)
end

variable {c : Char} {digits : List Char}

section RoundTrip

/-- A parser reads a text in front of a rest it leaves alone. -/
def Reads {Value : Type} (parse : Input → Except String (Value × Input)) (text rest : List Char)
    (value : Value) : Prop :=
  ∀ position, ∃ after, parse ⟨text ++ rest, position⟩ = .ok (value, ⟨rest, after⟩)

theorem skipWhitespace_cons (solid : isWhitespace c = false) (rest : List Char) (position : Nat) :
    skipWhitespace ⟨c :: rest, position⟩ = ⟨c :: rest, position⟩ := by
  simp [skipWhitespace, Input.advance, solid]

theorem skipWhitespace_nil (position : Nat) : skipWhitespace ⟨[], position⟩ = ⟨[], position⟩ := rfl

theorem consume_append (literal rest : List Char) (position : Nat) :
    consume literal ⟨literal ++ rest, position⟩ = .ok ⟨rest, position + literal.length⟩ := by
  simp [consume, Input.advance]

theorem strtoul16_control {value : Nat} (control : value < 0x20) :
    strtoul16 ['0', '0', Nat.digitChar (value / 16), Nat.digitChar (value % 16)] =
      some (UInt32.ofNat value) := by
  revert value
  decide

theorem appendUtf8_control {value : Nat} (control : value < 0x20) :
    appendUtf8 (UInt32.ofNat value) = [Char.ofNat value] := by
  revert value
  decide

section Body

variable {position : Nat} {out rest : List Char}

theorem stringBody_end :
    stringBody position out ('"' :: rest) = .ok (String.ofList out, ⟨rest, position + 1⟩) := by
  rw [stringBody.eq_def]
  simp

theorem stringBody_short {escaped plain : Char} (short : unescape escaped = some plain) :
    stringBody position out ('\\' :: escaped :: rest) =
      stringBody (position + 2) (out ++ [plain]) rest := by
  have notCode : escaped ≠ 'u' := by
    rintro rfl
    simp [unescape] at short
  rw [stringBody.eq_def]
  simp [notCode, short]

theorem stringBody_code {first second third fourth : Char} {code : UInt32}
    (read : strtoul16 [first, second, third, fourth] = some code) :
    stringBody position out ('\\' :: 'u' :: first :: second :: third :: fourth :: rest) =
      stringBody (position + 6) (out ++ appendUtf8 code) rest := by
  rw [stringBody.eq_def]
  simp [read]

theorem stringBody_plain (inside : c ≠ '"') (plain : c ≠ '\\') :
    stringBody position out (c :: rest) = stringBody (position + 1) (out ++ [c]) rest := by
  rw [stringBody.eq_def]
  simp [inside, plain]

end Body

theorem stringBody_escape (c : Char) (position : Nat) (out rest : List Char) :
    ∃ after, stringBody position out (escape c ++ rest) = stringBody after (out ++ [c]) rest := by
  unfold escape
  split_ifs with quoted slash back feed line carriage tab control
  · exact ⟨_, stringBody_short (by simp [unescape, quoted])⟩
  · exact ⟨_, stringBody_short (by simp [unescape, slash])⟩
  · exact ⟨_, stringBody_short (by simp [unescape, back])⟩
  · exact ⟨_, stringBody_short (by simp [unescape, feed])⟩
  · exact ⟨_, stringBody_short (by simp [unescape, line])⟩
  · exact ⟨_, stringBody_short (by simp [unescape, carriage])⟩
  · exact ⟨_, stringBody_short (by simp [unescape, tab])⟩
  · refine ⟨position + 6, (stringBody_code (strtoul16_control control)).trans ?_⟩
    rw [appendUtf8_control control, Char.ofNat_toNat]
    rfl
  · exact ⟨_, stringBody_plain quoted slash⟩

theorem stringBody_quoted (text : List Char) (position : Nat) (out rest : List Char) :
    ∃ after, stringBody position out (text.flatMap escape ++ '"' :: rest) =
      .ok (String.ofList (out ++ text), ⟨rest, after⟩) := by
  induction text generalizing position out with
  | nil =>
    refine ⟨position + 1, ?_⟩
    rw [List.append_nil]
    exact stringBody_end
  | cons c text ih =>
    obtain ⟨middle, first⟩ := stringBody_escape c position out (text.flatMap escape ++ '"' :: rest)
    obtain ⟨after, later⟩ := ih middle (out ++ [c])
    refine ⟨after, ?_⟩
    rw [flatMap_cons, append_assoc, first, later]
    simp

theorem parseString_quote (text : String) (rest : List Char) :
    Reads parseString (quote text) rest text := by
  intro position
  obtain ⟨after, read⟩ := stringBody_quoted text.toList (position + 1) [] rest
  refine ⟨after, ?_⟩
  have opened : consume ['"'] ⟨quote text ++ rest, position⟩ =
      .ok ⟨text.toList.flatMap escape ++ '"' :: rest, position + 1⟩ := by
    have shape : quote text ++ rest = ['"'] ++ (text.toList.flatMap escape ++ '"' :: rest) := by
      simp [quote]
    rw [shape]
    rfl
  simp only [parseString, opened, bind, Except.bind]
  rw [read]
  simp

/-- What follows a value does not go on as a number. -/
def Stops (rest : List Char) : Prop := ∀ c ∈ rest.head?, isNumberChar c = false

theorem stops_cons (other : isNumberChar c = false) (rest : List Char) : Stops (c :: rest) := by
  rintro _ ⟨⟩
  exact other

variable {rest : List Char}

theorem takeWhile_stops (numeric : digits.all isNumberChar = true) (stops : Stops rest) :
    (digits ++ rest).takeWhile isNumberChar = digits := by
  rw [takeWhile_append_of_pos (by simpa using numeric)]
  cases rest with
  | nil => simp
  | cons c tail => simp [stops c (by simp)]

theorem isDigit_toDigits (value : Nat) : (Nat.toDigits 10 value).all Char.isDigit = true := by
  rw [all_eq_true]
  intro c member
  exact Nat.isDigit_of_mem_toDigits (by decide) (by decide) member

theorem numeric_of_digits (all : digits.all Char.isDigit = true) :
    digits.all isNumberChar = true := by
  rw [all_eq_true] at all ⊢
  intro c member
  simp [isNumberChar, all c member]

theorem saturate_of_fits {value : Int} (low : -2 ^ 63 ≤ value) (high : value < 2 ^ 63) :
    saturate value = value := by
  unfold saturate
  omega

theorem head_toDigits (value : Nat) :
    ∃ first tail, Nat.toDigits 10 value = first :: tail ∧ first.isDigit = true := by
  cases shape : Nat.toDigits 10 value with
  | nil => exact absurd shape Nat.toDigits_ne_nil
  | cons first tail =>
    have all := isDigit_toDigits value
    rw [shape, all_cons, Bool.and_eq_true] at all
    exact ⟨first, tail, rfl, all.1⟩

theorem head_decimal (value : Int) :
    ∃ first tail, decimal value = first :: tail ∧ isWhitespace first = false ∧
      ∀ other : Char, other ≠ '-' → other.isDigit = false → first ≠ other := by
  obtain ⟨first, tail, head, isDigit⟩ := head_toDigits value.natAbs
  by_cases negative : value < 0
  · exact ⟨'-', _, if_pos negative, rfl, fun other notSign _ => notSign.symm⟩
  · refine ⟨first, tail, by rw [decimal, if_neg negative, head], ?_, ?_⟩
    · simp only [isWhitespace, Bool.or_eq_false_iff, decide_eq_false_iff_not]
      refine ⟨⟨⟨?_, ?_⟩, ?_⟩, ?_⟩ <;> (rintro rfl; cases isDigit)
    · rintro other - notDigit rfl
      rw [isDigit] at notDigit
      cases notDigit

variable {floats : FloatFormat}

theorem parseNumber_integer {input : Input} {body : List Char} (found : numberBody input = body)
    (nonempty : body ≠ []) (digits : body.all Char.isDigit = true) : parseNumber floats input =
      if input.rest.head? = some '-' then
        .ok (.integer (saturate (-(Nat.ofDigitChars 10 body 0 : Int))), input.advance (body.length + 1))
      else .ok (.integer (saturate (Nat.ofDigitChars 10 body 0)), input.advance body.length) := by
  simp only [parseNumber, found]
  by_cases negative : input.rest.head? = some '-'
  · simp only [negative]
    rw [if_neg (by simp), if_pos ⟨nonempty, digits⟩]
    rfl
  · simp only [negative, if_false]
    rw [if_neg nonempty, if_pos ⟨nonempty, digits⟩]

theorem parseNumber_decimal {value : Int} (low : -2 ^ 63 ≤ value) (high : value < 2 ^ 63)
    (stops : Stops rest) : Reads (parseNumber floats) (decimal value) rest (.integer value) := by
  intro position
  have digits := isDigit_toDigits value.natAbs
  have body := takeWhile_stops (numeric_of_digits digits) stops
  by_cases negative : value < 0
  · have shape : decimal value = '-' :: Nat.toDigits 10 value.natAbs := if_pos negative
    have number : numberBody ⟨decimal value ++ rest, position⟩ = Nat.toDigits 10 value.natAbs := by
      simp [numberBody, shape, body]
    have signed : -(value.natAbs : Int) = value := by omega
    refine ⟨position + (decimal value).length, ?_⟩
    rw [parseNumber_integer number Nat.toDigits_ne_nil digits,
      Nat.ofDigitChars_ten_toDigits, signed, saturate_of_fits low high, shape]
    simp [Input.advance]
  · have shape : decimal value = Nat.toDigits 10 value.natAbs := if_neg negative
    obtain ⟨first, tail, head, isDigit⟩ := head_toDigits value.natAbs
    have unsigned : ¬(decimal value ++ rest).head? = some '-' := by
      rw [shape, head]
      rintro equal
      cases equal
      cases isDigit
    have number : numberBody ⟨decimal value ++ rest, position⟩ = Nat.toDigits 10 value.natAbs := by
      rw [numberBody, if_neg unsigned, shape, body]
    have magnitude : (value.natAbs : Int) = value := by omega
    refine ⟨position + (decimal value).length, ?_⟩
    rw [parseNumber_integer number Nat.toDigits_ne_nil digits, if_neg unsigned,
      Nat.ofDigitChars_ten_toDigits, magnitude, saturate_of_fits low high, shape]
    simp [Input.advance]

variable {value : JsonValue}

theorem head_write (floats : FloatFormat) (plain : Plain value) :
    ∃ c tail, write floats value = c :: tail ∧ isWhitespace c = false ∧ c ≠ ']' := by
  cases value with
  | null => exact ⟨'n', _, rfl, rfl, by decide⟩
  | bool value =>
    cases value
    · exact ⟨'f', _, rfl, rfl, by decide⟩
    · exact ⟨'t', _, rfl, rfl, by decide⟩
  | integer value =>
    obtain ⟨first, tail, shape, solid, other⟩ := head_decimal value
    exact ⟨first, tail, shape, solid, other _ (by decide) rfl⟩
  | number bits => exact plain.elim
  | string value => exact ⟨'"', _, rfl, rfl, by decide⟩
  | array values => exact ⟨'[', _, rfl, rfl, by decide⟩
  | object fields => exact ⟨'\x7b', _, rfl, rfl, by decide⟩

theorem writeItems_more (item : JsonValue) (rest : List JsonValue) :
    writeItems floats false (item :: rest) = ',' :: writeItems floats true (item :: rest) := by
  simp [writeItems]

theorem writeFields_more (field : String × JsonValue) (rest : JsonObject) :
    writeFields floats false (field :: rest) = ',' :: writeFields floats true (field :: rest) := by
  simp [writeFields]

theorem stops_items (floats : FloatFormat) (more : List JsonValue) (rest : List Char) :
    Stops (writeItems floats false more ++ ']' :: rest) := by
  cases more with
  | nil => exact stops_cons rfl _
  | cons item tail =>
    exact stops_cons rfl _

theorem stops_fields (floats : FloatFormat) (more : JsonObject) (rest : List Char) :
    Stops (writeFields floats false more ++ '\x7d' :: rest) := by
  cases more with
  | nil => exact stops_cons rfl _
  | cons field tail =>
    exact stops_cons rfl _

theorem length_writeItems (floats : FloatFormat) (first : Bool) {items : List JsonValue}
    (plain : PlainItems items) : items.length ≤ (writeItems floats first items).length := by
  induction items generalizing first with
  | nil => exact Nat.zero_le _
  | cons item rest ih =>
    obtain ⟨c, tail, head, _⟩ := head_write floats plain.1
    have later := ih false plain.2
    simp only [writeItems, head, List.length_append, List.length_cons]
    omega

theorem length_writeFields (floats : FloatFormat) (first : Bool) (fields : JsonObject) :
    fields.length ≤ (writeFields floats first fields).length := by
  induction fields generalizing first with
  | nil => exact Nat.zero_le _
  | cons field rest ih =>
    have later := ih false
    simp only [writeFields, List.length_append, List.length_cons]
    omega

theorem parseValue_cons (levels : Nat) (solid : isWhitespace c = false) (rest : List Char)
    (position : Nat) :
    parseValue floats (levels + 1) ⟨c :: rest, position⟩ =
      if c = '\x7b' then parseObject (parseValue floats levels) ⟨c :: rest, position⟩
      else if c = '[' then parseArray (parseValue floats levels) ⟨c :: rest, position⟩
      else if c = '"' then do
        let (text, after) ← parseString ⟨c :: rest, position⟩
        return (.string text, after)
      else if c = 't' then do
        let after ← consume "true".toList ⟨c :: rest, position⟩
        return (.bool true, after)
      else if c = 'f' then do
        let after ← consume "false".toList ⟨c :: rest, position⟩
        return (.bool false, after)
      else if c = 'n' then do
        let after ← consume "null".toList ⟨c :: rest, position⟩
        return (.null, after)
      else parseNumber floats ⟨c :: rest, position⟩ := by
  simp only [parseValue, skipWhitespace_cons solid]

theorem reads_literal {Value : Type} (literal rest : List Char) (value : Value) :
    Reads (fun input => do
      let after ← consume literal input
      return (value, after)) literal rest value := by
  intro position
  refine ⟨position + literal.length, ?_⟩
  simp only [consume_append]
  rfl

theorem reads_number (levels : Nat) {value : Int} (low : -2 ^ 63 ≤ value)
    (high : value < 2 ^ 63) (stops : Stops rest) :
    Reads (parseValue floats (levels + 1)) (decimal value) rest (.integer value) := by
  intro position
  obtain ⟨after, read⟩ := parseNumber_decimal low high stops position
  refine ⟨after, ?_⟩
  obtain ⟨c, tail, shape, solid, other⟩ := head_decimal value
  rw [shape, cons_append] at read ⊢
  rw [parseValue_cons levels solid, if_neg (other _ (by decide) rfl),
    if_neg (other _ (by decide) rfl), if_neg (other _ (by decide) rfl),
    if_neg (other _ (by decide) rfl), if_neg (other _ (by decide) rfl),
    if_neg (other _ (by decide) rfl)]
  exact read

variable {parse : Input → Except String (JsonValue × Input)} {text tail : List Char}

theorem parseItems_item {item : JsonValue} (solid : isWhitespace c = false)
    (reads : Reads parse text (c :: rest) item) (rounds : Nat) (items : List JsonValue)
    (position : Nat) : ∃ behind, parseItems parse (rounds + 1) items ⟨text ++ c :: rest, position⟩ =
      if c = ',' then parseItems parse rounds (items ++ [item]) ⟨rest, behind + 1⟩
      else if c = ']' then .ok (.array (items ++ [item]), ⟨rest, behind + 1⟩)
      else fail "expected ',' or ']'" ⟨c :: rest, behind⟩ := by
  obtain ⟨behind, read⟩ := reads position
  refine ⟨behind, ?_⟩
  simp only [parseItems, read, bind, Except.bind, skipWhitespace_cons solid]
  rfl

theorem parseFields_member {key : String} (solid : isWhitespace c = false)
    (reads : Reads parse text (c :: rest) value) (rounds : Nat)
    {members : JsonObject} (new : find key members = none) (position : Nat) :
    ∃ behind, parseFields parse (rounds + 1) members
        ⟨quote key ++ ':' :: (text ++ c :: rest), position⟩ =
      if c = ',' then parseFields parse rounds (emplace key value members) ⟨rest, behind + 1⟩
      else if c = '\x7d' then .ok (.object (emplace key value members), ⟨rest, behind + 1⟩)
      else fail "expected ',' or '\x7d'" ⟨c :: rest, behind⟩ := by
  obtain ⟨colon, readKey⟩ := parseString_quote key (':' :: (text ++ c :: rest)) position
  obtain ⟨behind, read⟩ := reads (colon + 1)
  have start : skipWhitespace ⟨quote key ++ ':' :: (text ++ c :: rest), position⟩ =
      ⟨quote key ++ ':' :: (text ++ c :: rest), position⟩ := skipWhitespace_cons rfl _ _
  have atColon : skipWhitespace ⟨':' :: (text ++ c :: rest), colon⟩ =
      ⟨':' :: (text ++ c :: rest), colon⟩ := skipWhitespace_cons rfl _ _
  have consumed : consume [':'] ⟨':' :: (text ++ c :: rest), colon⟩ =
      .ok ⟨text ++ c :: rest, colon + 1⟩ := consume_append [':'] _ _
  refine ⟨behind, ?_⟩
  simp only [parseFields, start, readKey, bind,
    Except.bind, atColon, consumed, read, new,
    skipWhitespace_cons solid]
  rfl

theorem levels_of_depth {levels : Nat} (shallow : depth value ≤ levels) :
    ∃ below, levels = below + 1 := by
  have positive : 1 ≤ depth value := by cases value <;> simp [depth]
  exact ⟨levels - 1, by omega⟩

theorem parseArray_empty (parse : Input → Except String (JsonValue × Input)) (rest : List Char) :
    Reads (parseArray parse) ['[', ']'] rest (.array []) :=
  fun position => ⟨position + 2, rfl⟩

theorem parseArray_items {items : List JsonValue} (head : text = c :: tail)
    (solid : isWhitespace c = false) (inside : c ≠ ']')
    (reads : ∀ position, ∃ after, parseItems parse ((text ++ ']' :: rest).length + 1) []
      ⟨text ++ ']' :: rest, position⟩ = .ok (.array items, ⟨rest, after⟩)) :
    Reads (parseArray parse) ('[' :: (text ++ [']'])) rest (.array items) := by
  intro position
  obtain ⟨after, read⟩ := reads (position + 1)
  refine ⟨after, ?_⟩
  have shape : '[' :: (text ++ [']']) ++ rest = ['['] ++ (text ++ ']' :: rest) := by simp
  have skipped : skipWhitespace ⟨text ++ ']' :: rest, position + 1⟩ =
      ⟨text ++ ']' :: rest, position + 1⟩ := by
    rw [head]
    exact skipWhitespace_cons solid _ _
  have opened : ¬(text ++ ']' :: rest).head? = some ']' := by simp [head, inside]
  rw [shape]
  simp only [parseArray, consume_append, bind, Except.bind, List.length_singleton, skipped, opened]
  exact read

theorem parseObject_empty (parse : Input → Except String (JsonValue × Input)) (rest : List Char) :
    Reads (parseObject parse) ['\x7b', '\x7d'] rest (.object []) :=
  fun position => ⟨position + 2, rfl⟩

theorem parseObject_fields {fields : JsonObject} (head : text = '"' :: tail)
    (reads : ∀ position, ∃ after, parseFields parse ((text ++ '\x7d' :: rest).length + 1) []
      ⟨text ++ '\x7d' :: rest, position⟩ = .ok (.object fields, ⟨rest, after⟩)) :
    Reads (parseObject parse) ('\x7b' :: (text ++ ['\x7d'])) rest (.object fields) := by
  intro position
  obtain ⟨after, read⟩ := reads (position + 1)
  refine ⟨after, ?_⟩
  have shape : '\x7b' :: (text ++ ['\x7d']) ++ rest = ['\x7b'] ++ (text ++ '\x7d' :: rest) := by
    simp
  have skipped : skipWhitespace ⟨text ++ '\x7d' :: rest, position + 1⟩ =
      ⟨text ++ '\x7d' :: rest, position + 1⟩ := by
    rw [head]
    exact skipWhitespace_cons rfl _ _
  have opened : ¬(text ++ '\x7d' :: rest).head? = some '\x7d' := by simp [head]
  rw [shape]
  simp only [parseObject, consume_append, bind, Except.bind, length_singleton, skipped, opened]
  exact read

mutual
theorem parseValue_write (value : JsonValue) (plain : Plain value)
    {levels : Nat} (shallow : depth value ≤ levels) {rest : List Char} (stops : Stops rest) :
    Reads (parseValue floats levels) (write floats value) rest value := by
  obtain ⟨below, rfl⟩ := levels_of_depth shallow
  cases value with
  | null => exact reads_literal "null".toList rest JsonValue.null
  | bool value =>
    cases value
    · exact reads_literal "false".toList rest (JsonValue.bool false)
    · exact reads_literal "true".toList rest (JsonValue.bool true)
  | integer value => exact reads_number below plain.1 plain.2 stops
  | number bits => exact plain.elim
  | string value =>
    intro position
    obtain ⟨after, read⟩ := parseString_quote value rest position
    refine ⟨after, ?_⟩
    have head : parseValue floats (below + 1) ⟨quote value ++ rest, position⟩ = do
        let (text, after) ← parseString ⟨quote value ++ rest, position⟩
        return (.string text, after) := parseValue_cons below rfl _ _
    rw [write, head, read]
    rfl
  | array values =>
    have shallowItems : depthItems values ≤ below := Nat.le_of_succ_le_succ shallow
    have reads : Reads (parseArray (parseValue floats below))
        ('[' :: (writeItems floats true values ++ [']'])) rest (.array values) := by
      cases values with
      | nil => exact parseArray_empty _ rest
      | cons item more =>
        obtain ⟨c, tail, head, solid, inside⟩ := head_write floats plain.1
        have start : writeItems floats true (item :: more) =
            c :: (tail ++ writeItems floats false more) := by simp [writeItems, head]
        refine parseArray_items start solid inside ?_
        intro position
        refine parseItems_write (item :: more) plain shallowItems (by simp) ?_ [] rest
          position
        have enough := length_writeItems floats true plain
        simp only [length_append]
        omega
    intro position
    obtain ⟨after, read⟩ := reads position
    exact ⟨after, (parseValue_cons below rfl _ _).trans read⟩
  | object fields =>
    have shallowFields : depthFields fields ≤ below := Nat.le_of_succ_le_succ shallow
    have reads : Reads (parseObject (parseValue floats below))
        ('\x7b' :: (writeFields floats true fields ++ ['\x7d'])) rest (.object fields) := by
      cases fields with
      | nil => exact parseObject_empty _ rest
      | cons field more =>
        refine parseObject_fields rfl ?_
        intro position
        refine parseFields_write (field :: more) plain.2 shallowFields (by simp) ?_ []
          plain.1 rest position
        have enough := length_writeFields floats true (field :: more)
        simp only [length_append]
        omega
    intro position
    obtain ⟨after, read⟩ := reads position
    exact ⟨after, (parseValue_cons below rfl _ _).trans read⟩

theorem parseItems_write (items : List JsonValue) (plain : PlainItems items)
    {levels : Nat} (shallow : depthItems items ≤ levels) (nonempty : items ≠ []) {rounds : Nat}
    (enough : items.length ≤ rounds) (read : List JsonValue) (rest : List Char) (position : Nat) :
    ∃ after, parseItems (parseValue floats levels) rounds read
        ⟨writeItems floats true items ++ ']' :: rest, position⟩ =
      .ok (.array (read ++ items), ⟨rest, after⟩) := by
  cases items with
  | nil => exact absurd rfl nonempty
  | cons item more =>
    obtain ⟨fewer, rfl⟩ : ∃ fewer, rounds = fewer + 1 := ⟨rounds - 1, by simp at enough; omega⟩
    have deep := max_le_iff.mp shallow
    have shape : writeItems floats true (item :: more) ++ ']' :: rest =
        write floats item ++ (writeItems floats false more ++ ']' :: rest) := by
      simp [writeItems]
    have first := parseValue_write item plain.1 deep.1 (stops_items floats more rest)
    rw [shape]
    cases more with
    | nil =>
      obtain ⟨behind, stepped⟩ := parseItems_item rfl first fewer read position
      exact ⟨behind + 1, stepped⟩
    | cons second others =>
      rw [writeItems_more, cons_append] at first ⊢
      obtain ⟨behind, stepped⟩ := parseItems_item rfl first fewer read position
      obtain ⟨after, later⟩ := parseItems_write (second :: others) plain.2 deep.2
        (by simp) (Nat.le_of_succ_le_succ enough) (read ++ [item]) rest (behind + 1)
      exact ⟨after, by rw [stepped, if_pos rfl, later]; simp⟩

theorem parseFields_write (fields : JsonObject) (plain : PlainFields fields)
    {levels : Nat} (shallow : depthFields fields ≤ levels) (nonempty : fields ≠ []) {rounds : Nat}
    (enough : fields.length ≤ rounds) (read : JsonObject) (ordered : Ordered (read ++ fields))
    (rest : List Char) (position : Nat) :
    ∃ after, parseFields (parseValue floats levels) rounds read
        ⟨writeFields floats true fields ++ '\x7d' :: rest, position⟩ =
      .ok (.object (read ++ fields), ⟨rest, after⟩) := by
  cases fields with
  | nil => exact absurd rfl nonempty
  | cons field more =>
    obtain ⟨key, value⟩ := field
    obtain ⟨fewer, rfl⟩ : ∃ fewer, rounds = fewer + 1 := ⟨rounds - 1, by simp at enough; omega⟩
    have deep := max_le_iff.mp shallow
    -- the keys ascend, so the member goes to the end
    obtain ⟨new, last⟩ := @emplace_last _ _ _ value key read (by
      intro other member
      unfold Ordered keys at ordered
      rw [map_append, pairwise_append] at ordered
      exact ordered.2.2 other member key (by simp))
    have shape : writeFields floats true ((key, value) :: more) ++ '\x7d' :: rest =
        quote key ++ ':' :: (write floats value ++ (writeFields floats false more ++ '\x7d' :: rest)) := by
      simp [writeFields]
    have first := parseValue_write value plain.1 deep.1 (stops_fields floats more rest)
    rw [shape]
    cases more with
    | nil =>
      obtain ⟨behind, stepped⟩ := parseFields_member rfl first fewer new position
      refine ⟨behind + 1, stepped.trans ?_⟩
      rw [last]
      rfl
    | cons second others =>
      rw [writeFields_more, cons_append] at first ⊢
      obtain ⟨behind, stepped⟩ := parseFields_member rfl first fewer new position
      obtain ⟨after, later⟩ := parseFields_write (second :: others) plain.2 deep.2
        (by simp) (Nat.le_of_succ_le_succ enough) (read ++ [(key, value)]) (by simpa using ordered)
        rest (behind + 1)
      refine ⟨after, ?_⟩
      rw [stepped, if_pos rfl, last, later]
      simp
end

theorem parseValue_serialize (floats : FloatFormat) (plain : Plain value) {levels : Nat}
    (enough : depth value ≤ levels) :
    ∃ after, parseValue floats levels ⟨(serialize floats value).toList, 0⟩ =
      .ok (value, ⟨[], after⟩) := by
  obtain ⟨after, read⟩ := @parseValue_write floats value plain levels enough [] nofun 0
  rw [append_nil] at read
  exact ⟨after, by rw [serialize, String.toList_ofList, read]⟩

/-- What is serialised is parsed back: no doubles, 64-bit integers, nesting up to the parser's
limit, any strings and keys. -/
theorem parse_serialize (floats : FloatFormat) (value : JsonValue) (plain : Plain value)
    (shallow : depth value ≤ maxDepth) : parseJson floats (serialize floats value) = .ok value := by
  obtain ⟨after, read⟩ := parseValue_serialize floats plain shallow
  simp only [parseJson, read, bind, Except.bind, skipWhitespace_nil, if_true]

theorem parse_serialize_escapes :
    parseJson ⟨fun _ => [], fun _ => none⟩ (serialize ⟨fun _ => [], fun _ => none⟩
      (.object [("a\x00\"", .array [.integer (-2 ^ 63), .null]),
        ("b", .object [("\x1f\n", .string "\\u0041")])])) =
    .ok (.object [("a\x00\"", .array [.integer (-2 ^ 63), .null]),
      ("b", .object [("\x1f\n", .string "\\u0041")])]) := by
  refine parse_serialize _ _ ?_ (by decide)
  simp only [Plain, PlainItems, PlainFields, Ordered, keys]
  decide

end RoundTrip

section Unicode

def utf8 (c : Char) : List Char :=
  (if c.toNat < 0x80 then [c.toNat]
  else if c.toNat < 0x800 then [0xC0 + c.toNat / 64, 0x80 + c.toNat % 64]
  else if c.toNat < 0x10000 then
    [0xE0 + c.toNat / 4096, 0x80 + c.toNat / 64 % 64, 0x80 + c.toNat % 64]
  else [0xF0 + c.toNat / 262144, 0x80 + c.toNat / 4096 % 64, 0x80 + c.toNat / 64 % 64,
    0x80 + c.toNat % 64]).map Char.ofNat

def hexCode (hex : List Char) : Nat := hex.foldl (fun sum c => 16 * sum + (hexValue c).getD 0) 0

/-- What stands between the quotes: a character in UTF-8, a short escape, or `\u` and the four bytes
behind it. -/
inductive Piece where
  | plain (c : Char)
  | short (mark : Char)
  | code (hex : List Char)

def Piece.text : Piece → List Char
  | .plain c => utf8 c
  | .short mark => ['\\', mark]
  | .code hex => '\\' :: 'u' :: hex

def Piece.hasDigits : Piece → Bool
  | .code hex => hex.all fun c => (hexValue c).isSome
  | _ => true

def Piece.Proper : Piece → Prop
  | .plain c => c ≠ '"' ∧ c ≠ '\\'
  | .short mark => mark ≠ 'u'
  | .code hex => hex.length = 4

/-- Four digits stand behind `\u`, and they spell no surrogate. -/
def Piece.Scalar (piece : Piece) : Prop :=
  piece.hasDigits ∧ ∀ hex, piece = .code hex → (hexCode hex).isValidChar

/-- What a string of pieces stands for: a high surrogate counts only with the low one behind it, and
the two are one character. -/
inductive Denotes : List Piece → List Char → Prop where
  | nil : Denotes [] []
  | plain {c pieces chars} (later : Denotes pieces chars) : Denotes (.plain c :: pieces) (c :: chars)
  | short {mark c pieces chars} (known : unescape mark = some c) (later : Denotes pieces chars) :
      Denotes (.short mark :: pieces) (c :: chars)
  | code {hex pieces chars} (scalar : (Piece.code hex).Scalar) (later : Denotes pieces chars) :
      Denotes (.code hex :: pieces) (Char.ofNat (hexCode hex) :: chars)
  | pair {high low pieces chars} (first : (Piece.code high).hasDigits)
      (second : (Piece.code low).hasDigits)
      (leads : 0xD800 ≤ hexCode high ∧ hexCode high < 0xDC00)
      (trails : 0xDC00 ≤ hexCode low ∧ hexCode low < 0xE000) (later : Denotes pieces chars) :
      Denotes (.code high :: .code low :: pieces)
        (Char.ofNat (0x10000 + (hexCode high - 0xD800) * 0x400 + (hexCode low - 0xDC00)) :: chars)

/-- The bytes that the loop appends for a piece, if it takes the piece. -/
def Piece.written : Piece → Option (List Char)
  | .plain c => some (utf8 c)
  | .short mark => (unescape mark).map ([·])
  | .code hex => (strtoul16 hex).map appendUtf8

variable {c : Char} {hex out rest : List Char} {text : String} {after : Input} {position : Nat}

theorem hexCode_lt (four : hex.length = 4) : hexCode hex < 0x10000 := by
  have digit (c : Char) : (hexValue c).getD 0 < 16 := by
    unfold hexValue
    split_ifs <;> simp_all [Char.isDigit, Char.le_def, UInt32.le_iff_toNat_le] <;> omega
  match hex, four with
  | [first, second, third, fourth], _ =>
    have one := digit first
    have two := digit second
    have three := digit third
    have last := digit fourth
    simp only [hexCode, foldl_cons, foldl_nil]
    omega

theorem or_eq_add : (∀ low < 64, 0x80 ||| low = 0x80 + low) ∧
    (∀ low < 32, 0xC0 ||| low = 0xC0 + low) ∧ ∀ low < 16, 0xE0 ||| low = 0xE0 + low := by
  decide

theorem appendUtf8_code {code : Nat} (small : code < 0x10000) (valid : code.isValidChar) :
    appendUtf8 (UInt32.ofNat code) = utf8 (Char.ofNat code) := by
  obtain ⟨tail, two, three⟩ := or_eq_add
  have low (value : Nat) : value &&& 0x3F = value % 64 := Nat.and_two_pow_sub_one_eq_mod value 6
  have byte (value : Nat) : (0x80 + value % 64) % 256 = 0x80 + value % 64 := by omega
  have scalar : (Char.ofNat code).toNat = code := by
    rw [Char.ofNat, dif_pos valid]
    rfl
  have number : (UInt32.ofNat code).toNat = code :=
    UInt32.toNat_ofNat_of_lt' (small.trans (by decide))
  simp only [appendUtf8, utf8, scalar, byteChar, UInt32.lt_iff_toNat_lt, UInt32.toNat_or,
    UInt32.toNat_and, UInt32.toNat_shiftRight, number, Nat.shiftRight_eq_div_pow,
    UInt32.reduceToNat, Nat.reduceMod, low,
    tail _ (Nat.mod_lt _ (by decide : 0 < 64)), byte]
  split_ifs
  · rw [Nat.mod_eq_of_lt (by omega)]
    rfl
  · rw [two _ (by omega), Nat.mod_eq_of_lt (by omega)]
    rfl
  · rw [three _ (by omega), Nat.mod_eq_of_lt (by omega)]
    rfl

theorem utf8_plain (plain : c ≠ '"' ∧ c ≠ '\\') : ∀ byte ∈ utf8 c, byte ≠ '"' ∧ byte ≠ '\\' := by
  have high : ∀ byte, 0x80 ≤ byte → byte < 0x100 →
      Char.ofNat byte ≠ '"' ∧ Char.ofNat byte ≠ '\\' := by decide
  have bound : c.toNat < 0x110000 := by
    rcases c.valid with low | pair
    · exact low.trans (by decide)
    · exact pair.2
  unfold utf8
  split_ifs
  · simpa using plain
  all_goals
    refine forall_mem_map.mpr fun byte member => ?_
    simp only [mem_cons, not_mem_nil, or_false] at member
    exact high byte (by omega) (by omega)

theorem stringBody_bytes {bytes : List Char} (plain : ∀ c ∈ bytes, c ≠ '"' ∧ c ≠ '\\')
    (position : Nat) (out rest : List Char) : ∃ next,
    stringBody position out (bytes ++ rest) = stringBody next (out ++ bytes) rest := by
  induction bytes generalizing position out with
  | nil => exact ⟨position, by simp⟩
  | cons c bytes ih =>
    obtain ⟨here, later⟩ := forall_mem_cons.mp plain
    obtain ⟨next, read⟩ := ih later (position + 1) (out ++ [c])
    refine ⟨next, ?_⟩
    rw [cons_append, stringBody_plain here.1 here.2, read, append_assoc]
    rfl

theorem hexDigit_plain : (hexValue c).isSome →
    isSpaceChar c = false ∧ c ≠ '+' ∧ c ≠ '-' ∧ c ≠ 'x' ∧ c ≠ 'X' ∧ c ≠ '\x00' := by
  intro digit
  refine ⟨?_, ?_, ?_, ?_, ?_, ?_⟩
  · by_contra space
    have control : c = ' ' ∨ 9 ≤ c.toNat ∧ c.toNat ≤ 13 := by
      simpa [isSpaceChar, or_iff_not_imp_left] using space
    rcases control with rfl | ⟨low, high⟩
    · exact absurd digit (by decide)
    · rw [← c.ofNat_toNat] at digit
      generalize c.toNat = value at low high digit
      exact absurd digit (by revert value; decide)
  all_goals
    rintro rfl
    exact absurd digit (by decide)

theorem strtoul16_digits (four : hex.length = 4) (digits : (Piece.code hex).hasDigits) :
    strtoul16 hex = some (UInt32.ofNat (hexCode hex)) := by
  match hex, four with
  | [first, second, third, fourth], _ =>
    simp only [Piece.hasDigits, all_cons, all_nil, Bool.and_true, Bool.and_eq_true] at digits
    obtain ⟨one, two, three, four⟩ := digits
    have one' := hexDigit_plain one
    have two' := hexDigit_plain two
    have three' := hexDigit_plain three
    have four' := hexDigit_plain four
    simp [strtoul16, afterRadix, hexCode, one, two, three, four, one', two', three', four']

theorem unescape_ascii {mark : Char} (known : unescape mark = some c) : utf8 c = [c] := by
  unfold unescape at known
  split_ifs at known <;> cases known <;> rfl

theorem written_short {mark : Char} (known : unescape mark = some c) :
    (Piece.short mark).written = some (utf8 c) := by
  rw [Piece.written, known, Option.map_some, unescape_ascii known]

theorem written_scalar (proper : (Piece.code hex).Proper) (scalar : (Piece.code hex).Scalar) :
    (Piece.code hex).written = some (utf8 (Char.ofNat (hexCode hex))) := by
  rw [Piece.written, strtoul16_digits proper scalar.1, Option.map_some,
    appendUtf8_code (hexCode_lt proper) (scalar.2 hex rfl)]

theorem stringBody_piece {piece : Piece} (proper : piece.Proper)
    (accepted : stringBody position out (piece.text ++ rest) = .ok (text, after)) :
    ∃ bytes next, piece.written = some bytes ∧
      stringBody next (out ++ bytes) rest = .ok (text, after) := by
  cases piece with
  | plain c =>
    obtain ⟨next, read⟩ := stringBody_bytes (utf8_plain proper) position out rest
    exact ⟨_, next, rfl, read ▸ accepted⟩
  | short mark =>
    cases known : unescape mark with
    | none =>
      rw [Piece.text, stringBody.eq_def] at accepted
      simp [known, show mark ≠ 'u' from proper, fail] at accepted
    | some c =>
      exact ⟨[c], position + 2, by simp [Piece.written, known],
        (stringBody_short known).symm.trans accepted⟩
  | code hex =>
    match hex, proper with
    | [first, second, third, fourth], _ =>
      cases code : strtoul16 [first, second, third, fourth] with
      | none =>
        rw [Piece.text, stringBody.eq_def] at accepted
        simp [code, fail] at accepted
      | some value =>
        exact ⟨appendUtf8 value, position + 6, by simp [Piece.written, code],
          (stringBody_code code).symm.trans accepted⟩

theorem stringBody_pieces {pieces : List Piece} (proper : ∀ piece ∈ pieces, piece.Proper)
    (accepted : stringBody position out (pieces.flatMap Piece.text ++ '"' :: rest) =
      .ok (text, after)) : text.toList = out ++ (pieces.filterMap Piece.written).flatten ∧
      ∀ piece ∈ pieces, piece.written ≠ none := by
  induction pieces generalizing position out with
  | nil =>
    cases stringBody_end.symm.trans accepted
    simp
  | cons piece pieces ih =>
    obtain ⟨here, later⟩ := forall_mem_cons.mp proper
    rw [flatMap_cons, append_assoc] at accepted
    obtain ⟨bytes, next, known, read⟩ := stringBody_piece here accepted
    obtain ⟨shape, others⟩ := ih later read
    exact ⟨by simp [shape, known], forall_mem_cons.mpr ⟨by simp [known], others⟩⟩

theorem scalars_denote {pieces : List Piece} (proper : ∀ piece ∈ pieces, piece.Proper)
    (taken : ∀ piece ∈ pieces, piece.written ≠ none) (scalar : ∀ piece ∈ pieces, piece.Scalar) :
    ∃ chars, Denotes pieces chars ∧
      (pieces.filterMap Piece.written).flatten = chars.flatMap utf8 := by
  induction pieces with
  | nil => exact ⟨[], .nil, rfl⟩
  | cons piece pieces ih =>
    obtain ⟨properHere, properLater⟩ := forall_mem_cons.mp proper
    obtain ⟨takenHere, takenLater⟩ := forall_mem_cons.mp taken
    obtain ⟨scalarHere, scalarLater⟩ := forall_mem_cons.mp scalar
    obtain ⟨chars, later, bytes⟩ := ih properLater takenLater scalarLater
    cases piece with
    | plain c => exact ⟨c :: chars, .plain later, by simp [Piece.written, bytes]⟩
    | short mark =>
      obtain ⟨c, known⟩ : ∃ c, unescape mark = some c := by
        cases known : unescape mark with
        | none => exact absurd (by rw [Piece.written, known, Option.map_none]) takenHere
        | some c => exact ⟨c, rfl⟩
      exact ⟨c :: chars, .short known later, by simp [written_short known, bytes]⟩
    | code hex =>
      exact ⟨_, .code scalarHere later,
        by simp [written_scalar properHere scalarHere, bytes]⟩

theorem written_surrogate (proper : (Piece.code hex).Proper) (digits : (Piece.code hex).hasDigits)
    (surrogate : 0xD800 ≤ hexCode hex) :
    ∃ bytes, (Piece.code hex).written = some bytes ∧ bytes.length = 3 := by
  have number : (UInt32.ofNat (hexCode hex)).toNat = hexCode hex :=
    UInt32.toNat_ofNat_of_lt' ((hexCode_lt proper).trans (by decide))
  refine ⟨_, by rw [Piece.written, strtoul16_digits proper digits, Option.map_some], ?_⟩
  rw [appendUtf8, if_neg (by rw [UInt32.lt_iff_toNat_lt, number]; simp; omega),
    if_neg (by rw [UInt32.lt_iff_toNat_lt, number]; simp; omega)]
  rfl

theorem utf8_length_le : (utf8 c).length ≤ 4 := by
  unfold utf8
  split_ifs <;> simp

/-- A pair is written as six bytes where its character has four: only a string of scalars is as long
as what it denotes. -/
theorem denoted_length {pieces : List Piece} {chars : List Char} (denoted : Denotes pieces chars)
    (proper : ∀ piece ∈ pieces, piece.Proper) :
    (chars.flatMap utf8).length ≤ (pieces.filterMap Piece.written).flatten.length ∧
      ((chars.flatMap utf8).length = (pieces.filterMap Piece.written).flatten.length →
        ∀ piece ∈ pieces, piece.Scalar) := by
  induction denoted with
  | nil => simp
  | @plain c _ _ _ ih =>
    obtain ⟨fits, exact⟩ := ih (forall_mem_cons.mp proper).2
    rw [filterMap_cons_some (show (Piece.plain c).written = some (utf8 c) from rfl)]
    simp only [flatMap_cons, flatten_cons, length_append]
    exact ⟨by omega, fun same => forall_mem_cons.mpr ⟨⟨rfl, nofun⟩, exact (by omega)⟩⟩
  | short known _ ih =>
    obtain ⟨fits, exact⟩ := ih (forall_mem_cons.mp proper).2
    rw [filterMap_cons_some (written_short known)]
    simp only [flatMap_cons, flatten_cons, length_append]
    exact ⟨by omega, fun same => forall_mem_cons.mpr ⟨⟨rfl, nofun⟩, exact (by omega)⟩⟩
  | code scalar _ ih =>
    obtain ⟨here, later⟩ := forall_mem_cons.mp proper
    obtain ⟨fits, exact⟩ := ih later
    rw [filterMap_cons_some (written_scalar here scalar)]
    simp only [flatMap_cons, flatten_cons, length_append]
    exact ⟨by omega, fun same => forall_mem_cons.mpr ⟨scalar, exact (by omega)⟩⟩
  | pair first second leads trails _ ih =>
    obtain ⟨properHigh, later⟩ := forall_mem_cons.mp proper
    obtain ⟨properLow, later⟩ := forall_mem_cons.mp later
    obtain ⟨fits, exact⟩ := ih later
    obtain ⟨one, wroteOne, three⟩ := written_surrogate properHigh first leads.1
    obtain ⟨two, wroteTwo, six⟩ := written_surrogate properLow second (by omega)
    rw [filterMap_cons_some wroteOne, filterMap_cons_some wroteTwo]
    simp only [flatMap_cons, flatten_cons, length_append]
    have four := @utf8_length_le
    exact ⟨by grind, by grind⟩

/-- An accepted string of UTF-8 characters and escapes is the UTF-8 of what it denotes exactly when
four digits stand behind every `\u` and none of them spells a surrogate. -/
theorem accepted_string_decoded_iff (pieces : List Piece) (proper : ∀ piece ∈ pieces, piece.Proper)
    (position : Nat) (rest : List Char) (text : String) (after : Input)
    (accepted : parseString ⟨'"' :: (pieces.flatMap Piece.text ++ '"' :: rest), position⟩ =
      .ok (text, after)) : (∃ chars, Denotes pieces chars ∧ text.toList = chars.flatMap utf8) ↔
      ∀ piece ∈ pieces, piece.Scalar := by
  obtain ⟨shape, taken⟩ := stringBody_pieces proper accepted
  rw [nil_append] at shape
  constructor
  · rintro ⟨chars, denoted, bytes⟩
    exact (denoted_length denoted proper).2 (by rw [← bytes, shape])
  · intro scalar
    obtain ⟨chars, denoted, bytes⟩ := scalars_denote proper taken scalar
    exact ⟨chars, denoted, shape.trans bytes⟩

theorem accented_string_decoded : ∃ chars, Denotes [.plain 'é', .code ['0', '0', '4', '1']] chars ∧
      ['\xc3', '\xa9', 'A'] = chars.flatMap utf8 :=
  (accepted_string_decoded_iff [.plain 'é', .code ['0', '0', '4', '1']] (by simp [Piece.Proper]) 0 []
    "\xc3\xa9A" _ rfl).mpr
    (by simp [Piece.Scalar, Piece.hasDigits, hexCode, hexValue, Nat.isValidChar])

/-- Blanks pass for digits, and the halves of a pair are written one by one. -/
theorem lenient_escapes_accepted :
    (parseString ⟨"\"\\u  41\"".toList, 0⟩).map Prod.fst = .ok "A" ∧ hexValue ' ' = none ∧
      (parseString ⟨"\"\\ud83d\\ude00\"".toList, 0⟩).map (·.1.toList) =
        .ok (appendUtf8 0xD83D ++ appendUtf8 0xDE00) := by
  decide +kernel

end Unicode

end GraphEngine.JsonText
