import GraphEngine.AuditRedaction
import GraphEngine.OperationRegistry

/-!
The audit records of failures, from what an operator answers to what is stored: a mutation whose
new node does not open (session.cpp, node_runtime.cpp) with `AuditFromOperation`, and a node that
fails in a running session (engine.cpp). `Append` redacts the digest and nothing else. Then the
pages a reader of the ring gets.
-/

namespace GraphEngine.AuditRecords

open Values OrderedMaps OperationRegistry AuditRedaction List

structure AuditRecord where
  auditId : Nat := 0
  timestampNs : Int := 0
  caller : CallerContext := {}
  operation : String
  target : String
  sessionId : Nat := 0
  operationId : Option Nat := none
  topologyVersion : Option Nat := none
  parameterVersion : Option Nat := none
  result : Option StatusCode := none
  message : String := ""
  digest : JsonValue := .object []
  deriving DecidableEq

def stateText : OperationState → String
  | .accepted => "accepted"
  | .running => "running"
  | .succeeded => "succeeded"
  | .failed => "failed"
  | .cancelled => "cancelled"

def note (key : String) (value : Option JsonValue) (fields : JsonObject) : JsonObject :=
  value.elim fields fun value => assign key value fields

def getInteger (key : String) (fields : JsonObject) : Option Int :=
  match find key fields with
  | some (.integer value) => some value
  | _ => none

def auditFromOperation (record : OperationRecord) : AuditRecord where
  caller := record.caller
  operation := record.kind
  sessionId := record.sessionId
  operationId := some record.id
  topologyVersion := record.topologyVersion
  parameterVersion := record.parameterVersion
  result := record.result.map Status.code
  message := (record.result.map Status.message).getD ""
  target :=
    if record.sessionId ≠ 0 then "session:" ++ toString record.sessionId
    else match getInteger "plugin" record.detail.asObject with
      | some plugin => "plugin:" ++ toString plugin
      | none => "engine"
  digest := .object (note "error_context" (record.result.bind Status.context)
    (assign "state" (.string (stateText record.state)) record.detail.asObject))

/-- The record of `on_node_failed`. -/
def nodeFailed (session : Nat) (caller : CallerContext) (externalId : String) (key : OperatorKey)
    (status : Status) : AuditRecord where
  caller := caller
  operation := "node.failed"
  target := "node:" ++ externalId
  sessionId := session
  result := some status.code
  message := status.message
  digest := .object (note "error_context" status.context
    (assign "op" (.string key.render) (assign "node" (.string externalId) [])))

/-- `AuditLog::Append`; the id and the time are those of the log. -/
def append (auditId : Nat) (now : Int) (record : AuditRecord) : AuditRecord :=
  { record with
    auditId := auditId
    timestampNs := if record.timestampNs = 0 then now else record.timestampNs
    digest := redact 256 32 record.digest }

/-- `NodeRuntime::Open` when the operator does not open. -/
def warmupFailed (externalId : String) (error : Status) : Status :=
  .nodeWarmupFailed ("node '" ++ externalId ++ "' open failed: " ++ error.message)

/-- The failure is put down to the first action whose name is in the message. -/
def failedAction (actions : List String) (status : Status) : Option JsonValue :=
  (actions.find? fun name => (findText name.toList status.message.toList).isSome).map .string

def failedDetail (actions : List String) (origins : List Nat) (status : Status) : JsonObject :=
  note "context" status.context (note "merged_operations"
    (if 1 < origins.length then some (.array (origins.map fun id => .integer id)) else none)
    (note "failed_action" (failedAction actions status) []))

def getString (key : String) (fields : JsonObject) : Option String :=
  match find key fields with
  | some (.string value) => some value
  | _ => none

/-- `patch` is what the caller sent, around the options of the node that fails. -/
structure Request where
  operation : Nat
  session : Nat
  caller : CallerContext
  actions : List String
  origins : List Nat
  externalId : String
  key : OperatorKey
  patch : JsonObject → JsonValue
  now : Int

/-- How an operator fails; the text may quote an option, as `open '<path>'` of the demuxer and the
muxer does. -/
structure Failure where
  code : StatusCode
  before : String
  quotes : Option String := none
  after : String := ""

/-- What differs between two runs. -/
structure Run where
  options : JsonObject
  context : Option JsonValue := none

def quoted (failure : Failure) (run : Run) : String :=
  (failure.quotes.bind fun key => getString key run.options).getD ""

def error (failure : Failure) (run : Run) : Status where
  code := failure.code
  message := failure.before ++ quoted failure run ++ failure.after
  context := run.context

def failedMutation (request : Request) (failure : Failure) (run : Run) : OperationRecord :=
  let status := warmupFailed request.externalId (error failure run)
  OperationRecord.finish
    { id := request.operation
      kind := "mutation.apply"
      sessionId := request.session
      state := .running
      caller := request.caller
      detail := .object [("patch", request.patch run.options)]
      createdNs := request.now }
    (.fail status (.object (failedDetail request.actions request.origins status))) request.now

/-- Where the operator fails: in `Open` of a mutation, or in a running session. -/
inductive Stage where
  | opening | running

def audit (request : Request) (auditId : Nat) (failure : Failure) (run : Run) : Stage → AuditRecord
  | .opening =>
    append auditId request.now (auditFromOperation (failedMutation request failure run))
  | .running => append auditId request.now
      (nodeFailed request.session request.caller request.externalId request.key
        (error failure run))

section Alike

mutual
theorem alike_refl (value : JsonValue) : Alike value value := by
  cases value with
  | string text => exact .inl rfl
  | array values => exact alikeItems_refl values
  | object fields => exact alikeFields_refl fields
  | _ => rfl

theorem alikeItems_refl (values : List JsonValue) : AlikeItems values values := by
  cases values with
  | nil => trivial
  | cons value rest => exact ⟨alike_refl value, alikeItems_refl rest⟩

theorem alikeFields_refl (fields : JsonObject) : AlikeFields fields fields := by
  cases fields with
  | nil => trivial
  | cons field rest => exact ⟨rfl, .inr (alike_refl field.2), alikeFields_refl rest⟩
end

variable {key : String} {lefts rights : JsonObject}

theorem alikeFields_assign {left right : JsonValue} (values : Alike left right)
    (fields : AlikeFields lefts rights) :
    AlikeFields (assign key left lefts) (assign key right rights) := by
  induction lefts generalizing rights with
  | nil =>
    cases rights with
    | nil => exact ⟨rfl, .inr values, trivial⟩
    | cons => exact fields.elim
  | cons field rest ih =>
    cases rights with
    | nil => exact fields.elim
    | cons other more =>
      obtain ⟨_, hidden⟩ := other
      obtain ⟨rfl, here, later⟩ := fields
      unfold assign
      split_ifs
      · exact ⟨rfl, .inr values, later⟩
      · exact ⟨rfl, .inr values, rfl, here, later⟩
      · exact ⟨rfl, here, ih later⟩

theorem alikeFields_assignAll (added : JsonObject) (fields : AlikeFields lefts rights) :
    AlikeFields (assignAll added lefts) (assignAll added rights) := by
  induction added generalizing lefts rights with
  | nil => exact fields
  | cons entry rest ih => exact ih (alikeFields_assign (alike_refl entry.2) fields)

theorem alikeFields_note {left right : Option JsonValue} (values : Option.Rel Alike left right)
    (fields : AlikeFields lefts rights) :
    AlikeFields (note key left lefts) (note key right rights) := by
  cases values with
  | none => exact fields
  | some alike => exact alikeFields_assign alike fields

theorem getInteger_alike (plain : isSensitiveKey key = false) (fields : AlikeFields lefts rights) :
    getInteger key lefts = getInteger key rights := by
  unfold getInteger
  induction lefts generalizing rights with
  | nil =>
    cases rights with
    | nil => rfl
    | cons => exact fields.elim
  | cons field rest ih =>
    cases rights with
    | nil => exact fields.elim
    | cons other more =>
      obtain ⟨name, value⟩ := field
      obtain ⟨_, hidden⟩ := other
      obtain ⟨rfl, here, later⟩ := fields
      by_cases same : key = name
      · cases value <;> cases hidden <;> simp_all [find, Alike]
      · simpa only [find, if_neg same] using ih later

end Alike

section Results

variable {auditId : Nat} {now : Int} {lefts rights : JsonObject}

theorem redact_fields (alike : AlikeFields lefts rights) :
    redact 256 32 (.object lefts) = redact 256 32 (.object rights) :=
  redactImpl_alike 0 (.object lefts) (.object rights) alike

theorem append_operation (record : OperationRecord) (alike : AlikeFields lefts rights) :
    append auditId now (auditFromOperation { record with detail := .object lefts }) =
      append auditId now (auditFromOperation { record with detail := .object rights }) := by
  have plugin : getInteger "plugin" lefts = getInteger "plugin" rights :=
    getInteger_alike (by decide) alike
  simp only [append, auditFromOperation, JsonValue.asObject, plugin]
  congr 1
  refine redact_fields ?_
  let state := JsonValue.string (stateText record.state)
  have states : AlikeFields (assign "state" state lefts) (assign "state" state rights) :=
    alikeFields_assign (alike_refl state) alike
  cases record.result.bind Status.context with
  | none => exact states
  | some context => exact alikeFields_assign (alike_refl context) states

theorem append_nodeFailed {request : Request} {left right : Status} (code : left.code = right.code)
    (contexts : Option.Rel Alike left.context right.context) (unquoted : left.message = right.message) :
    append auditId now (nodeFailed request.session request.caller request.externalId request.key left) =
      append auditId now
        (nodeFailed request.session request.caller request.externalId request.key right) := by
  simp only [append, nodeFailed, code]
  congr 1
  exact redact_fields (alikeFields_note contexts (alikeFields_refl _))

theorem append_failedMutation {request : Request} {failure : Failure} {left right : Run}
    (patches : Alike (request.patch left.options) (request.patch right.options))
    (unquoted : (error failure left).message = (error failure right).message) :
    append auditId now (auditFromOperation (failedMutation request failure left)) =
      append auditId now (auditFromOperation (failedMutation request failure right)) := by
  have same : warmupFailed request.externalId (error failure left) =
      warmupFailed request.externalId (error failure right) := by
    rw [warmupFailed, warmupFailed, unquoted]
  have held : AlikeFields [("patch", request.patch left.options)]
      [("patch", request.patch right.options)] := ⟨rfl, .inr patches, trivial⟩
  simp only [failedMutation, same]
  exact append_operation (failedMutation request failure right) (alikeFields_assignAll _ held)

theorem audit_message {request : Request} {failure : Failure} (stage : Stage) :
    ∃ opened, ∀ run, (audit request auditId failure run stage).message =
      opened ++ quoted failure run ++ failure.after := by
  cases stage with
  | opening =>
    refine ⟨"node '" ++ request.externalId ++ "' open failed: " ++ failure.before, fun run => ?_⟩
    simp [audit, append, auditFromOperation, failedMutation, warmupFailed, error,
      OperationRecord.finish, Ending.result, Status.nodeWarmupFailed, String.append_assoc]
  | running => exact ⟨failure.before, fun run => rfl⟩

/-- Runs whose patches differ only in what must not be seen and that fail in the same way store the
same record exactly when the option that the text quotes, if any, is the same in both. -/
theorem failures_audited_alike_iff (request : Request) (auditId : Nat) (failure : Failure)
    (stage : Stage) {left right : Run}
    (patches : Alike (request.patch left.options) (request.patch right.options))
    (contexts : Option.Rel Alike left.context right.context) :
    audit request auditId failure left stage = audit request auditId failure right stage ↔
      quoted failure left = quoted failure right := by
  constructor
  · intro same
    obtain ⟨opened, message⟩ := @audit_message auditId request failure stage
    have texts := congrArg (fun record => record.message.toList) same
    simp only [message, String.toList_append] at texts
    exact String.toList_inj.mp (append_cancel_left (append_cancel_right texts))
  · intro same
    have unquoted : (error failure left).message = (error failure right).message := by
      simp only [error, same]
    cases stage with
    | opening => exact append_failedMutation patches unquoted
    | running => exact append_nodeFailed rfl contexts unquoted

def adding (externalId : String) (key : OperatorKey) : Request where
  operation := 1
  session := 1
  caller := {}
  actions := ["add_node"]
  origins := [1]
  externalId := externalId
  key := key
  patch := .object
  now := 0

def pathOption (key userinfo tail : String) : Run where
  options := [(key, .string (String.ofList (address userinfo tail).text))]

theorem alike_paths (key : String) : Alike (.object (pathOption key "a:b" "?k=1").options)
    (.object (pathOption key "user" "#t").options) := by
  refine ⟨rfl, .inr (.inr ?_), trivial⟩
  simpa using alike_addresses

theorem header_failures_alike :
    let failure : Failure := {
      code := .invalidArgument
      before := "node 'mux': write_header: Invalid argument" }
    audit (adding "mux" ⟨"MediaMux", "1.0.0"⟩) 1 failure (pathOption "output_path" "a:b" "?k=1")
        .running =
      audit (adding "mux" ⟨"MediaMux", "1.0.0"⟩) 1 failure (pathOption "output_path" "user" "#t")
        .running :=
  (failures_audited_alike_iff _ 1 _ .running (alike_paths "output_path") .none).mpr rfl

/-- The file that cannot be opened, and in the text its whole address. -/
def openFailed (externalId option : String) : Failure where
  code := .notFound
  before := "node '" ++ externalId ++ "': open '"
  quotes := some option
  after := "': No such file or directory"

/-- The demuxer fails in `Open` and the muxer when it writes the header; the records show the userinfo
and the query. -/
theorem media_nodes_quote_addresses : Alike (.object (pathOption "input_path" "a:b" "?k=1").options)
        (.object (pathOption "input_path" "user" "#t").options) ∧
      (audit (adding "demux" ⟨"MediaDemux", "1.0.0"⟩) 1 (openFailed "demux" "input_path")
        (pathOption "input_path" "a:b" "?k=1") .opening).message ≠
      (audit (adding "demux" ⟨"MediaDemux", "1.0.0"⟩) 1 (openFailed "demux" "input_path")
        (pathOption "input_path" "user" "#t") .opening).message ∧
      (audit (adding "mux" ⟨"MediaMux", "1.0.0"⟩) 1 (openFailed "mux" "output_path")
        (pathOption "output_path" "a:b" "?k=1") .running).message ≠
      (audit (adding "mux" ⟨"MediaMux", "1.0.0"⟩) 1 (openFailed "mux" "output_path")
        (pathOption "output_path" "user" "#t") .running).message := by
  refine ⟨alike_paths _, ?_, ?_⟩
  · decide +kernel
  · decide +kernel

end Results

section Pages

structure AuditFilter where
  sessionId : Option Nat := none
  operation : Option String := none
  callerId : Option String := none
  requestId : Option String := none
  failuresOnly : Bool := false
  sinceNs : Int := 0
  afterAuditId : Nat := 0
  limit : Nat := 0

/-- The tests of `Query` behind the cursor. -/
def AuditFilter.accepts (filter : AuditFilter) (record : AuditRecord) : Bool :=
  filter.sinceNs ≤ record.timestampNs && filter.sessionId.all (· = record.sessionId) &&
    filter.operation.all (· = record.operation) &&
    filter.callerId.all (· = record.caller.callerId) &&
    filter.requestId.all (· = record.caller.requestId) &&
    !(filter.failuresOnly && record.result.isNone)

structure AuditLog where
  capacity : Nat
  ring : List AuditRecord := []
  nextId : Nat := 1
  deriving DecidableEq

/-- The locked section of `Append`. -/
def AuditLog.append (log : AuditLog) (now : Int) (record : AuditRecord) : AuditLog :=
  let ring := log.ring ++ [AuditRecords.append log.nextId now record]
  { log with ring := ring.drop (ring.length - max 1 log.capacity), nextId := log.nextId + 1 }

def AuditLog.query (log : AuditLog) (filter : AuditFilter) : List AuditRecord :=
  let found := log.ring.filter fun record =>
    filter.afterAuditId < record.auditId && filter.accepts record
  if filter.limit = 0 then found else found.take filter.limit

structure Reader where
  log : AuditLog
  cursor : Nat := 0
  received : List AuditRecord := []
  deriving DecidableEq

inductive ReaderStep where
  | append (now : Int) (record : AuditRecord)
  /-- `QueryJson`; some records are appended after the query, before the last id is read. -/
  | page (between : List (Int × AuditRecord))

def Reader.step (filter : AuditFilter) (reader : Reader) : ReaderStep → Reader
  | .append now record => { reader with log := reader.log.append now record }
  | .page between =>
    let log := between.foldl (fun log entry => log.append entry.1 entry.2) reader.log
    { log := log
      cursor := log.nextId - 1
      received := reader.received ++ reader.log.query { filter with afterAuditId := reader.cursor } }

def InOrder (records : List AuditRecord) : Prop :=
  records.Pairwise fun first second => first.auditId < second.auditId

/-- The pages have no record twice and are in the order of the ids, and after one more page the
reader has every record in the log that the filter accepts. -/
def Complete (filter : AuditFilter) (reader : Reader) : Prop :=
  InOrder reader.received ∧ ∀ record ∈ reader.log.ring, filter.accepts record = true →
    record ∈ (reader.step filter (.page [])).received

variable {filter : AuditFilter} {reader : Reader}

structure Paged (filter : AuditFilter) (reader : Reader) : Prop where
  ring : InOrder reader.log.ring
  below : ∀ record ∈ reader.log.ring, record.auditId < reader.log.nextId
  cursor : reader.cursor < reader.log.nextId
  ordered : InOrder reader.received
  reached : ∀ record ∈ reader.received, record.auditId ≤ reader.cursor
  passed : ∀ record ∈ reader.log.ring, filter.accepts record = true →
    record.auditId ≤ reader.cursor → record ∈ reader.received

theorem Paged.append (paged : Paged filter reader) (now : Int) (record : AuditRecord) :
    Paged filter (reader.step filter (.append now record)) := by
  let stored := AuditRecords.append reader.log.nextId now record
  have inside : (reader.log.append now record).ring.Sublist (reader.log.ring ++ [stored]) :=
    drop_sublist _ _
  have grown : InOrder (reader.log.ring ++ [stored]) :=
    pairwise_append.mpr ⟨paged.ring, pairwise_singleton _ _, fun old member _ new =>
      mem_singleton.mp new ▸ paged.below old member⟩
  refine { paged with
    ring := grown.sublist inside, below := ?_, cursor := Nat.lt_succ_of_lt paged.cursor
    passed := ?_ }
  · intro each member
    rcases mem_append.mp (inside.subset member) with old | new
    · exact Nat.lt_succ_of_lt (paged.below each old)
    · exact mem_singleton.mp new ▸ Nat.lt_succ_self _
  · intro each member accepted reached
    rcases mem_append.mp (inside.subset member) with old | new
    · exact paged.passed each old accepted reached
    · rw [mem_singleton.mp new] at reached
      exact absurd paged.cursor reached.not_gt

theorem Paged.page (unlimited : filter.limit = 0) (paged : Paged filter reader) :
    Paged filter (reader.step filter (.page [])) := by
  have queried : reader.log.query { filter with afterAuditId := reader.cursor } =
      reader.log.ring.filter fun record =>
        reader.cursor < record.auditId && filter.accepts record := if_pos unlimited
  have cursor := paged.cursor
  simp only [Reader.step, queried]
  refine ⟨paged.ring, paged.below, Nat.sub_one_lt_of_lt cursor, ?_, ?_, ?_⟩
  · refine pairwise_append.mpr ⟨paged.ordered, paged.ring.sublist filter_sublist, ?_⟩
    intro old member new fresh
    have later := (mem_filter.mp fresh).2
    simp only [Bool.and_eq_true, decide_eq_true_eq] at later
    exact (paged.reached old member).trans_lt later.1
  · intro record member
    apply Nat.le_sub_one_of_lt
    rcases mem_append.mp member with old | new
    · exact (paged.reached record old).trans_lt cursor
    · exact paged.below record (mem_filter.mp new).1
  · intro record member accepted _
    by_cases past : record.auditId ≤ reader.cursor
    · exact mem_append_left _ (paged.passed record member accepted past)
    · exact mem_append_right _ (mem_filter.mpr ⟨member, by simp [accepted, not_le.mp past]⟩)

theorem paged_run (unlimited : filter.limit = 0) (steps : List ReaderStep)
    (undisturbed : ∀ between, .page between ∈ steps → between = []) (paged : Paged filter reader) :
    Paged filter (steps.foldl (Reader.step filter) reader) := by
  refine foldlRecOn steps _ paged fun reader paged step listed => ?_
  cases step with
  | append now record => exact paged.append now record
  | page between =>
    rw [undisturbed between listed]
    exact paged.page unlimited

def stopped : ReaderStep := .append 1 { operation := "session.stop", target := "session:1" }

end Pages

end GraphEngine.AuditRecords
