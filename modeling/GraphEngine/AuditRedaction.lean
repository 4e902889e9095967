import GraphEngine.JsonText
import Mathlib.Data.List.DropRight

/-!
Redaction of what goes to the audit log (audit_log.cpp). As in the JSON text each character stands
for one byte, and the locale is that of C.
-/

namespace GraphEngine.AuditRedaction

open Values JsonText List

section Redact

def findText (wanted : List Char) : List Char → Option Nat
  | [] => if wanted = [] then some 0 else none
  | c :: rest => if wanted.isPrefixOf (c :: rest) then some 0 else (findText wanted rest).map (· + 1)

def needles : List String :=
  ["key", "token", "secret", "password", "passwd", "credential", "auth", "cookie", "signature"]

def isSensitiveKey (key : String) : Bool :=
  needles.any fun needle => (findText needle.toList (key.toList.map Char.toLower)).isSome

def separator : List Char := "://".toList

def isTail (c : Char) : Bool := c = '?' || c = '#'

def redactAuthority (authority : List Char) : List Char :=
  if '@' ∈ authority then "***@".toList ++ authority.rtakeWhile (· ≠ '@') else authority

def redactUrl (url : List Char) : List Char :=
  match findText separator url with
  | none => url
  | some schemeEnd =>
    let rest := (url.drop (schemeEnd + 3)).takeWhile (!isTail ·)
    url.take (schemeEnd + 3) ++ (redactAuthority (rest.takeWhile (· ≠ '/')) ++
      rest.dropWhile (· ≠ '/'))

def isSchemeChar (c : Char) : Bool := c.isAlphanum || c = '+' || c = '-' || c = '.'

def looksLikeUrl (text : List Char) : Bool :=
  match findText separator text with
  | none => false
  | some schemeEnd => 0 < schemeEnd && schemeEnd ≤ 16 && (text.take schemeEnd).all isSchemeChar

def redactString (maxString : Nat) (text : List Char) : List Char :=
  if looksLikeUrl text then redactUrl text
  else if maxString < text.length then
    '<' :: (decimal text.length ++ (" chars: ".toList ++ (text.take (maxString / 4) ++ "...>".toList)))
  else text

variable (maxString maxArray : Nat)

mutual
def redactImpl (depth : Nat) (value : JsonValue) : JsonValue :=
  if 32 < depth then .string "..."
  else
    match value with
    | .string text => .string (String.ofList (redactString maxString text.toList))
    | .array values => .array (redactItems (depth + 1) maxArray values ++
        if maxArray < values.length then
          [.string (String.ofList ("<+".toList ++ (decimal (values.length - maxArray : Nat) ++
            " more>".toList)))]
        else [])
    | .object fields => .object (redactFields (depth + 1) fields)
    | other => other

def redactItems (depth left : Nat) (values : List JsonValue) : List JsonValue :=
  match left, values with
  | left + 1, value :: rest => redactImpl depth value :: redactItems depth left rest
  | _, _ => []

def redactFields (depth : Nat) : JsonObject → JsonObject
  | [] => []
  | (key, value) :: rest =>
    (key, if isSensitiveKey key then .string "***" else redactImpl depth value) ::
      redactFields depth rest
end

def redact (value : JsonValue) : JsonValue := redactImpl maxString maxArray 0 value

end Redact

section Secrets

/-- The parts of a URL; the tail is the query and the fragment with the character before them. -/
structure Url where
  scheme : List Char
  userinfo : Option (List Char)
  host : List Char
  path : List Char
  tail : List Char

namespace Url

def authority (url : Url) : List Char := (url.userinfo.elim [] (· ++ ['@'])) ++ url.host

def text (url : Url) : List Char :=
  url.scheme ++ (separator ++ (url.authority ++ (url.path ++ url.tail)))

structure WellFormed (url : Url) : Prop where
  scheme : url.scheme ≠ [] ∧ url.scheme.length ≤ 16 ∧ ∀ c ∈ url.scheme, isSchemeChar c = true
  userinfo : ∀ c ∈ url.userinfo.getD [], c ≠ '/' ∧ isTail c = false
  host : ∀ c ∈ url.host, c ≠ '/' ∧ c ≠ '@' ∧ isTail c = false
  path : (∀ c ∈ url.path.head?, c = '/') ∧ ∀ c ∈ url.path, isTail c = false
  tail : ∀ c ∈ url.tail.head?, isTail c = true

end Url

/-- URLs that differ only in their userinfo, query and fragment. -/
def AlikeUrls (left right : List Char) : Prop :=
  ∃ first second : Url, (first.WellFormed ∧ second.WellFormed) ∧
    (left = first.text ∧ right = second.text) ∧
    first.scheme = second.scheme ∧ first.host = second.host ∧ first.path = second.path ∧
    first.userinfo.isSome = second.userinfo.isSome

mutual
def Alike : JsonValue → JsonValue → Prop
  | .string left, .string right => left = right ∨ AlikeUrls left.toList right.toList
  | .array left, .array right => AlikeItems left right
  | .object left, .object right => AlikeFields left right
  | left, right => left = right

def AlikeItems : List JsonValue → List JsonValue → Prop
  | [], [] => True
  | left :: lefts, right :: rights => Alike left right ∧ AlikeItems lefts rights
  | _, _ => False

def AlikeFields : JsonObject → JsonObject → Prop
  | [], [] => True
  | (leftKey, left) :: lefts, (rightKey, right) :: rights =>
    leftKey = rightKey ∧ (isSensitiveKey leftKey = true ∨ Alike left right) ∧
      AlikeFields lefts rights
  | _, _ => False
end

theorem findText_scheme {scheme : List Char} (valid : ∀ c ∈ scheme, isSchemeChar c = true)
    (rest : List Char) : findText separator (scheme ++ (separator ++ rest)) = some scheme.length := by
  induction scheme with
  | nil => rfl
  | cons c more ih =>
    obtain ⟨first, valid⟩ := forall_mem_cons.mp valid
    have other : c ≠ ':' := by
      rintro rfl
      exact absurd first (by decide)
    rw [cons_append, findText, if_neg, ih valid]
    · rfl
    · simp [separator, other.symm]

section Cuts

variable {p : Char → Bool} {front back : List Char}

theorem takeWhile_until (passes : ∀ c ∈ front, p c = true) (stops : ∀ c ∈ back.head?, p c = false) :
    (front ++ back).takeWhile p = front ∧ (front ++ back).dropWhile p = back := by
  rw [takeWhile_append_of_pos passes, dropWhile_append_of_pos passes]
  cases back with
  | nil => simp
  | cons c rest => simp [stops c rfl]

theorem rtakeWhile_until {stop : Char} (stops : p stop = false) (passes : ∀ c ∈ back, p c = true) :
    (front ++ stop :: back).rtakeWhile p = back := by
  have cut : (back.reverse ++ stop :: front.reverse).takeWhile p = back.reverse := by
    refine (takeWhile_until (fun c member => passes c (mem_reverse.mp member)) ?_).1
    rintro _ ⟨⟩
    exact stops
  simp [rtakeWhile, cut]

end Cuts

variable {url : Url}

variable (valid : url.WellFormed)
include valid

theorem redactAuthority_authority : redactAuthority url.authority =
    (if url.userinfo.isSome then "***@".toList else []) ++ url.host := by
  unfold redactAuthority Url.authority
  cases url.userinfo with
  | none =>
    have plain : '@' ∉ url.host := fun member => (valid.host '@' member).2.1 rfl
    simp [plain]
  | some info =>
    simp only [Option.elim_some, append_assoc, singleton_append]
    rw [if_pos (mem_append_right _ mem_cons_self), rtakeWhile_until (by simp)]
    · rfl
    · exact fun c member => decide_eq_true (valid.host c member).2.1

theorem authority_plain : ∀ c ∈ url.authority, c ≠ '/' ∧ isTail c = false := by
  intro c member
  have info := valid.userinfo
  unfold Url.authority at member
  cases found : url.userinfo with
  | none =>
    rw [found] at member
    exact ⟨(valid.host c member).1, (valid.host c member).2.2⟩
  | some text =>
    rw [found] at member info
    rcases mem_append.mp member with inside | inside
    · rcases mem_append.mp inside with early | last
      · exact info c early
      · cases mem_singleton.mp last
        decide
    · exact ⟨(valid.host c inside).1, (valid.host c inside).2.2⟩

theorem redactUrl_text : redactUrl url.text = url.scheme ++ separator ++
    ((if url.userinfo.isSome then "***@".toList else []) ++ url.host ++ url.path) := by
  have plain := authority_plain valid
  have length : (url.scheme ++ separator).length = url.scheme.length + 3 := by
    rw [length_append]
    rfl
  have cut : url.text = url.scheme ++ separator ++ (url.authority ++ url.path ++ url.tail) := by
    simp only [Url.text, append_assoc]
  have rest : (url.text.drop (url.scheme.length + 3)).takeWhile (!isTail ·) =
      url.authority ++ url.path := by
    rw [cut, drop_left' length]
    refine (takeWhile_until ?_ ?_).1
    · intro c member
      rcases mem_append.mp member with inside | inside
      · simp [(plain c inside).2]
      · simp [valid.path.2 c inside]
    · exact fun c first => by simp [valid.tail c first]
  have split : (url.authority ++ url.path).takeWhile (· ≠ '/') = url.authority ∧
      (url.authority ++ url.path).dropWhile (· ≠ '/') = url.path := by
    refine takeWhile_until (fun c inside => decide_eq_true (plain c inside).1) ?_
    exact fun c first => by simp [valid.path.1 c first]
  have found : findText separator url.text = some url.scheme.length :=
    findText_scheme valid.scheme.2.2 _
  unfold redactUrl
  rw [found]
  simp only [rest, split.1, split.2, redactAuthority_authority valid]
  rw [cut, take_left' length]

theorem looksLikeUrl_text : looksLikeUrl url.text = true := by
  have found : findText separator url.text = some url.scheme.length :=
    findText_scheme valid.scheme.2.2 _
  unfold looksLikeUrl
  rw [found]
  have scheme : url.text.take url.scheme.length = url.scheme := take_left
  simp only [scheme, Bool.and_eq_true, decide_eq_true_eq, all_eq_true]
  exact ⟨⟨length_pos_iff.mpr valid.scheme.1, valid.scheme.2.1⟩, valid.scheme.2.2⟩

omit valid

theorem redactString_alike {left right : List Char} (alike : AlikeUrls left right)
    (maxString : Nat) : redactString maxString left = redactString maxString right := by
  obtain ⟨first, second, ⟨one, two⟩, ⟨rfl, rfl⟩, scheme, host, path, info⟩ := alike
  simp only [redactString, looksLikeUrl_text one, looksLikeUrl_text two, redactUrl_text one,
    redactUrl_text two, if_true, scheme, host, path, info]

end Secrets

section Results

variable {maxString maxArray : Nat}

theorem alikeItems_length {left right : List JsonValue} (alike : AlikeItems left right) :
    left.length = right.length := by
  induction left generalizing right with
  | nil =>
    cases right with
    | nil => rfl
    | cons => exact alike.elim
  | cons value rest ih =>
    cases right with
    | nil => exact alike.elim
    | cons other more => exact congrArg Nat.succ (ih alike.2)

mutual
theorem redactImpl_alike (depth : Nat) (left right : JsonValue) (alike : Alike left right) :
    redactImpl maxString maxArray depth left = redactImpl maxString maxArray depth right := by
  unfold redactImpl
  split_ifs with deep
  · rfl
  cases left with
  | string text =>
    cases right with
    | string other =>
      rcases alike with rfl | urls
      · rfl
      · simp only [redactString_alike urls]
    | _ => cases alike
  | array values =>
    cases right with
    | array others =>
      simp only [alikeItems_length alike, redactItems_alike (depth + 1) maxArray values others alike]
    | _ => cases alike
  | object fields =>
    cases right with
    | object others => simp only [redactFields_alike (depth + 1) fields others alike]
    | _ => cases alike
  | _ =>
    cases right <;> cases alike
    rfl

theorem redactItems_alike (depth left : Nat) (values others : List JsonValue)
    (alike : AlikeItems values others) : redactItems maxString maxArray depth left values =
      redactItems maxString maxArray depth left others := by
  cases values with
  | nil =>
    cases others with
    | nil => rfl
    | cons => exact alike.elim
  | cons value rest =>
    cases others with
    | nil => exact alike.elim
    | cons other more =>
      cases left with
      | zero => simp only [redactItems]
      | succ left =>
        simp only [redactItems, redactImpl_alike depth value other alike.1,
          redactItems_alike depth left rest more alike.2]

theorem redactFields_alike (depth : Nat) (fields others : JsonObject)
    (alike : AlikeFields fields others) :
    redactFields maxString maxArray depth fields = redactFields maxString maxArray depth others := by
  cases fields with
  | nil =>
    cases others with
    | nil => rfl
    | cons => exact alike.elim
  | cons field rest =>
    cases others with
    | nil => exact alike.elim
    | cons other more =>
      obtain ⟨key, value⟩ := field
      obtain ⟨_, hidden⟩ := other
      obtain ⟨rfl, secret, later⟩ := alike
      simp only [redactFields, redactFields_alike depth rest more later]
      split_ifs with sensitive
      · rfl
      · rw [redactImpl_alike depth value hidden (secret.resolve_left sensitive)]
end

/-- Values that differ only in what must not be seen are redacted to the same. -/
theorem redaction_hides_secrets (maxString maxArray : Nat) {left right : JsonValue}
    (alike : Alike left right) : redact maxString maxArray left = redact maxString maxArray right :=
  redactImpl_alike 0 left right alike

def address (userinfo tail : String) : Url :=
  ⟨"rtmp".toList, some userinfo.toList, "live.example".toList, "/in".toList, tail.toList⟩

def options (token : JsonValue) (userinfo tail : String) : JsonValue :=
  .object [("Token", token), ("url", .string (String.ofList (address userinfo tail).text))]

theorem alike_addresses : AlikeUrls (address "a:b" "?k=1").text (address "user" "#t").text := by
  refine ⟨_, _, ⟨⟨?_, ?_, ?_, ?_, ?_⟩, ⟨?_, ?_, ?_, ?_, ?_⟩⟩, ⟨rfl, rfl⟩, rfl, rfl, rfl, rfl⟩
  all_goals simp [address, isSchemeChar, isTail]

theorem options_redacted_alike :
    Alike (options .null "a:b" "?k=1") (options (.integer 3) "user" "#t") ∧
      redact 256 32 (options .null "a:b" "?k=1") = redact 256 32 (options (.integer 3) "user" "#t") := by
  have alike : Alike (options .null "a:b" "?k=1") (options (.integer 3) "user" "#t") := by
    refine ⟨rfl, .inl (by decide), rfl, .inr (.inr ?_), trivial⟩
    simpa using alike_addresses
  exact ⟨alike, redaction_hides_secrets 256 32 alike⟩

end Results

end GraphEngine.AuditRedaction
