import GraphEngine.JsonText
import GraphEngine.Runs

/-!
The calls of a plugin operator and their emits, after `HostApiAdapter` in plugin_operator.cpp.
Every call of `PluginOperator::Process` opens a scope with an `Invoke` object of its own. The
object is recorded twice: for the thread that runs the call and for the operator's adapter. An
emit is checked against the thread's record and carried out on the adapter's.

A packet is handed to the sink of an `Invoke`. What the sink answers and event sinks are left out.
-/

namespace GraphEngine.EmitScopes

open Values OrderedMaps JsonText Runs Option List Function

abbrev Thread := Nat
abbrev Adapter := Nat
abbrev Address := Nat

/-- What a plugin passes: texts are null or given, a payload is a buffer handle. -/
structure PacketView where
  seq : UInt64 := 0
  ptsNs : Int := 0
  dtsNs : Int := 0
  flags : UInt32 := 0
  typeTag : Option String := none
  metadataJson : Option String := none
  payload : Option Nat := none
  deriving DecidableEq

/-- `packet` is absent when its pointer is null or its header does not fit. -/
structure EmitArgs where
  headerOk : Bool := true
  callbackContext : Address
  outputPort : Option String
  packet : Option PacketView
  deriving DecidableEq

structure Packet where
  seq : UInt64
  ptsNs : Int
  dtsNs : Int
  flags : UInt32
  typeTag : String
  metadata : Option (List (String × String))
  payload : Option Nat
  deriving DecidableEq

structure OperatorInfo where
  externalId : String
  isSource : Bool

def eosFlag : UInt32 := 2

def droppedFlag : UInt32 := 8

def metadataFromJson (floats : FloatFormat) (text : String) : Result (List (String × String)) :=
  match parseJson floats text with
  | .error message => .error (.invalidArgument ("invalid metadata JSON: " ++ message))
  | .ok (.object fields) =>
    .ok (assignAll (fields.map fun field =>
      (field.1, match field.2 with
        | .string text => text
        | value => serialize floats value)) [])
  | .ok _ => .error (.invalidArgument "metadata must be a JSON object")

/-- The checks of `DoEmit` behind the look at the current call. Nothing stands for an accepted
end of stream. -/
def accept (floats : FloatFormat) (info : OperatorInfo) (view : PacketView) :
    Result (Option Packet) :=
  if view.flags &&& eosFlag ≠ 0 then
    if !info.isSource then
      .error (.invalidArgument ("node '" ++ info.externalId ++ "' may not emit EOS"))
    else if view.payload.isSome then
      .error (.invalidArgument "EOS packet must have no payload")
    else .ok none
  else if view.flags &&& droppedFlag ≠ 0 then
    .error (.invalidArgument "plugins may not emit DROPPED placeholders")
  else
    match view.typeTag.filter (· ≠ "") with
    | none => .error (.invalidArgument "packet type_tag is required")
    | some tag => do
        let metadata ← match view.metadataJson.filter (· ≠ "") with
          | none => .ok none
          | some text => (metadataFromJson floats text).map some
        .ok (some ⟨view.seq, view.ptsNs, view.dtsNs, view.flags, tag, metadata, view.payload⟩)

section Machine

/-- The sink of one call; it stamps the versions of its call on every packet. -/
structure Sink where
  call : Nat
  topologyVersion : UInt64
  parameterVersion : UInt64
  deriving DecidableEq

structure Invoke where
  adapter : Adapter
  sink : Sink
  exhausted : Bool
  deriving DecidableEq

inductive Outcome where
  | rejected (status : Status)
  | marked (sink : Sink)
  | handed (sink : Sink) (port : String) (packet : Packet)
  deriving DecidableEq

inductive Event where
  /-- An emit by a running call, on its thread and with its own callback context. -/
  | emitted (sink : Sink) (adapter : Adapter) (args : EmitArgs) (outcome : Outcome)
  | finished (sink : Sink) (exhausted : Bool)
  deriving DecidableEq

/-- A call on a thread's stack. `disturbed` is no data of the source: it notes that another call
of the operator began or ended since this one began. -/
structure Call where
  sink : Sink
  adapter : Adapter
  context : Address
  disturbed : Bool := false
  deriving DecidableEq

/-- `current` is `current_` of the adapters and `threadCurrent` is `g_current_invoke`. -/
structure State where
  invokes : Address → Option Invoke := fun _ => none
  current : Adapter → Option Address := fun _ => none
  threadCurrent : Thread → Option Address := fun _ => none
  running : Thread → Option Call := fun _ => none
  calls : Nat := 0
  log : List Event := []

variable (floats : FloatFormat) (operators : Adapter → OperatorInfo)

def Call.disturb (adapter : Adapter) (call : Call) : Call :=
  if call.adapter = adapter then { call with disturbed := true } else call

/-- The constructor of `InvokeScope` at the start of a call. -/
def State.enter (state : State) (thread : Thread) (adapter : Adapter) (address : Address)
    (topologyVersion parameterVersion : UInt64) : State :=
  let sink : Sink := ⟨state.calls, topologyVersion, parameterVersion⟩
  { state with
    invokes := update state.invokes address (some ⟨adapter, sink, false⟩)
    current := update state.current adapter (some address)
    threadCurrent := update state.threadCurrent thread (some address)
    running := update (fun other => (state.running other).map (Call.disturb adapter)) thread
      (some { sink := sink, adapter := adapter, context := address })
    calls := state.calls + 1 }

/-- The end of a call: `exhausted` is read, then the destructor of `InvokeScope` runs. -/
def State.leave (state : State) (thread : Thread) (call : Call) : State :=
  { state with
    invokes := update state.invokes call.context none
    current := update state.current call.adapter none
    threadCurrent := update state.threadCurrent thread none
    running := update (fun other => (state.running other).map (Call.disturb call.adapter)) thread none
    log := state.log ++ [.finished call.sink ((state.invokes call.context).any Invoke.exhausted)] }

def State.active (state : State) (adapter : Adapter) : Option (Address × Invoke) := do
  let address ← state.current adapter
  let invoke ← state.invokes address
  return (address, invoke)

def State.doEmit (state : State) (adapter : Adapter) (port : String) (view : PacketView) :
    Outcome × State :=
  match state.active adapter with
  | none => (.rejected (.invalidArgument "no active process"), state)
  | some (address, invoke) =>
    match accept floats (operators adapter) view with
    | .error status => (.rejected status, state)
    | .ok none =>
      (.marked invoke.sink,
        { state with
          invokes := update state.invokes address (some { invoke with exhausted := true }) })
    | .ok (some packet) => (.handed invoke.sink port packet, state)

/-- The emit entry of the host's table, called on a thread. -/
def State.emit (state : State) (thread : Thread) (args : EmitArgs) : Outcome × State :=
  if !args.headerOk then (.rejected (.invalidArgument "invalid emit args"), state)
  else
    match (state.threadCurrent thread).filter (· = args.callbackContext) with
    | none =>
      (.rejected (.invalidArgument "emit outside of process or wrong callback_context"), state)
    | some address =>
      match args.outputPort, args.packet with
      | some port, some view =>
        match state.invokes address with
        | some invoke => state.doEmit floats operators invoke.adapter port view
        | none => (.rejected (.internal "dangling callback_context"), state)
      | _, _ => (.rejected (.invalidArgument "emit needs output_port and packet"), state)

inductive Action where
  | enter (thread : Thread) (adapter : Adapter) (address : Address)
      (topologyVersion parameterVersion : UInt64)
  | emit (thread : Thread) (args : EmitArgs)
  | leave (thread : Thread)

def State.own (state : State) (thread : Thread) (args : EmitArgs) : Option Call :=
  (state.running thread).filter fun call => args.callbackContext = call.context

/-- A thread runs one call at a time, and an object is allocated where none lives. -/
def act (state : State) : Action → Option State
  | .enter thread adapter address topologyVersion parameterVersion =>
    if (state.running thread).isNone ∧ (state.invokes address).isNone then
      some (state.enter thread adapter address topologyVersion parameterVersion)
    else none
  | .emit thread args =>
    let (outcome, after) := state.emit floats operators thread args
    match state.own thread args with
    | none => some after
    | some call =>
      some { after with log := after.log ++ [.emitted call.sink call.adapter args outcome] }
  | .leave thread => (state.running thread).map fun call => state.leave thread call

def Step (before after : State) : Prop := ∃ action, act floats operators before action = some after

end Machine

section Property

variable (floats : FloatFormat) (operators : Adapter → OperatorInfo)

/-- What an emit is to come to: it concerns the call's own sink and nothing else. -/
def expected (info : OperatorInfo) (sink : Sink) (args : EmitArgs) : Outcome :=
  if !args.headerOk then .rejected (.invalidArgument "invalid emit args")
  else
    match args.outputPort, args.packet with
    | some port, some view =>
      match accept floats info view with
      | .error status => .rejected status
      | .ok none => .marked sink
      | .ok (some packet) => .handed sink port packet
    | _, _ => .rejected (.invalidArgument "emit needs output_port and packet")

def Ended (log : List Event) (sink : Sink) : Prop :=
  ∃ adapter args, .emitted sink adapter args (.marked sink) ∈ log

/-- Every emit concerned its own call, and a call is exhausted exactly when it said so. -/
structure Faithful (log : List Event) : Prop where
  own : ∀ sink adapter args outcome, .emitted sink adapter args outcome ∈ log →
    outcome = expected floats (operators adapter) sink args
  exhausted : ∀ sink flag, .finished sink flag ∈ log → (flag = true ↔ Ended log sink)

/-- No call emits after another call of its operator began or ended within it. -/
def Undisturbed (before : State) : Action → Prop
  | .emit thread args => ∀ call ∈ before.own thread args, call.disturbed = false
  | _ => True

def UndisturbedStep (before after : State) : Prop :=
  ∃ action, Undisturbed before action ∧ act floats operators before action = some after

end Property

section Disturbing

variable (adapter : Adapter) (call : Call)

@[simp]
theorem disturb_sink : (call.disturb adapter).sink = call.sink := by
  unfold Call.disturb
  split_ifs <;> rfl

@[simp]
theorem disturb_adapter : (call.disturb adapter).adapter = call.adapter := by
  unfold Call.disturb
  split_ifs <;> rfl

@[simp]
theorem disturb_context : (call.disturb adapter).context = call.context := by
  unfold Call.disturb
  split_ifs <;> rfl

variable {call : Call}

theorem disturb_false {adapter : Adapter} (calm : (call.disturb adapter).disturbed = false) :
    call.disturbed = false ∧ call.adapter ≠ adapter := by
  unfold Call.disturb at calm
  split_ifs at calm with same
  exact ⟨calm, same⟩

end Disturbing

variable {args : EmitArgs}

section Invariant

variable {floats : FloatFormat} {operators : Adapter → OperatorInfo} {state : State}
  {thread : Thread}

def Event.sink : Event → Sink
  | .emitted sink _ _ _ => sink
  | .finished sink _ => sink

/-- What holds of a running call: it is recorded for its thread, and for its adapter as long as
nothing disturbed it. -/
structure Recorded (state : State) (place : Thread) (call : Call) : Prop where
  thread : state.threadCurrent place = some call.context
  object : ∃ flag, state.invokes call.context = some ⟨call.adapter, call.sink, flag⟩ ∧
    (flag = true ↔ Ended state.log call.sink)
  current : call.disturbed = false → state.current call.adapter = some call.context
  young : call.sink.call < state.calls
  unspent : ∀ flag, .finished call.sink flag ∉ state.log

structure Tidy (floats : FloatFormat) (operators : Adapter → OperatorInfo) (state : State) :
    Prop where
  recorded : ∀ place call, state.running place = some call → Recorded state place call
  idle : ∀ place, state.running place = none → state.threadCurrent place = none
  apart : ∀ place other left right, state.running place = some left →
    state.running other = some right →
    left.context = right.context ∨ left.sink = right.sink → place = other
  past : ∀ event ∈ state.log, event.sink.call < state.calls
  faithful : Faithful floats operators state.log

theorem tidy_start : Tidy floats operators {} where
  recorded := nofun
  idle _ _ := rfl
  apart := nofun
  past _ member := absurd member not_mem_nil
  faithful := ⟨fun _ _ _ _ member => absurd member not_mem_nil,
    fun _ _ member => absurd member not_mem_nil⟩

variable {adapter : Adapter}

theorem running_set {place : Thread} {value : Option Call}
    (found : update (fun other => (state.running other).map (Call.disturb adapter)) thread value place =
      some call) : (place = thread ∧ value = some call) ∨
      place ≠ thread ∧ ∃ old, state.running place = some old ∧ call = old.disturb adapter := by
  rw [update_apply] at found
  split_ifs at found with here
  · exact .inl ⟨here, found⟩
  · obtain ⟨old, running, same⟩ := map_eq_some_iff.mp found
    exact .inr ⟨here, old, running, same.symm⟩

theorem idle_set {place : Thread} {value : Option Call}
    (none : update (fun other => (state.running other).map (Call.disturb adapter)) thread value place =
      none) : (place = thread ∧ value = Option.none) ∨
        place ≠ thread ∧ state.running place = Option.none := by
  rw [update_apply] at none
  split_ifs at none with here
  · exact .inl ⟨here, none⟩
  · exact .inr ⟨here, map_eq_none_iff.mp none⟩

theorem not_ended_fresh (past : ∀ event ∈ state.log, event.sink.call < state.calls) {sink : Sink}
    (fresh : sink.call = state.calls) : ¬Ended state.log sink := by
  rintro ⟨adapter, args, member⟩
  have before := past _ member
  rw [Event.sink, fresh] at before
  exact Nat.lt_irrefl _ before

variable (tidy : Tidy floats operators state)

include tidy in
theorem tidy_enter {address : Address}
    {topologyVersion parameterVersion : UInt64} (free : state.running thread = none)
    (vacant : state.invokes address = none) : Tidy floats operators
      (state.enter thread adapter address topologyVersion parameterVersion) := by
  have elsewhere : ∀ {place call}, state.running place = some call → call.context ≠ address := by
    intro place call running same
    obtain ⟨flag, found, _⟩ := (tidy.recorded place call running).object
    rw [same, vacant] at found
    cases found
  have older : ∀ {place call}, state.running place = some call → call.sink.call ≠ state.calls :=
    fun running => (tidy.recorded _ _ running).young.ne
  constructor
  · intro place call found
    rcases running_set found with ⟨rfl, same⟩ | ⟨other, old, running, rfl⟩
    · cases same
      refine ⟨update_self _ _ _, ⟨false, update_self _ _ _, by simp, ?_⟩, fun _ => update_self _ _ _,
        Nat.lt_succ_self _, fun flag member => Nat.lt_irrefl _ (tidy.past _ member)⟩
      exact fun ended => absurd ended (not_ended_fresh tidy.past rfl)
    · have before := tidy.recorded place old running
      obtain ⟨flag, held, ended⟩ := before.object
      constructor <;> simp only [disturb_context, disturb_adapter, disturb_sink]
      · exact (update_of_ne other _ _).trans before.thread
      · exact ⟨flag, (update_of_ne (elsewhere running) _ _).trans held, ended⟩
      · intro calm
        obtain ⟨calmBefore, apart⟩ := disturb_false calm
        exact (update_of_ne apart _ _).trans (before.current calmBefore)
      · exact before.young.trans (Nat.lt_succ_self _)
      · exact before.unspent
  · intro place none
    rcases idle_set none with ⟨_, absurdity⟩ | ⟨other, before⟩
    · cases absurdity
    · exact (update_of_ne other _ _).trans (tidy.idle place before)
  · intro place other left right foundLeft foundRight same
    rcases running_set foundLeft with ⟨rfl, isLeft⟩ | ⟨notLeft, old, running, rfl⟩
    · rcases running_set foundRight with ⟨rfl, _⟩ | ⟨_, old, running, rfl⟩
      · rfl
      · cases isLeft
        simp only [disturb_context, disturb_sink] at same
        rcases same with sameContext | sameSink
        · exact absurd sameContext.symm (elsewhere running)
        · exact absurd (congrArg Sink.call sameSink).symm (older running)
    · simp only [disturb_context, disturb_sink] at same
      rcases running_set foundRight with ⟨rfl, isRight⟩ | ⟨_, second, runningSecond, rfl⟩
      · cases isRight
        rcases same with sameContext | sameSink
        · exact absurd sameContext (elsewhere running)
        · exact absurd (congrArg Sink.call sameSink) (older running)
      · simp only [disturb_context, disturb_sink] at same
        exact tidy.apart _ _ _ _ running runningSecond same
  · exact fun event member => (tidy.past event member).trans (Nat.lt_succ_self _)
  · exact tidy.faithful

theorem ended_finished {log : List Event} {sink other : Sink} {flag : Bool} :
    Ended (log ++ [.finished other flag]) sink ↔ Ended log sink := by
  simp [Ended]

include tidy in
theorem tidy_leave (running : state.running thread = some call) :
    Tidy floats operators (state.leave thread call) := by
  obtain ⟨flag, held, ended⟩ := (tidy.recorded thread call running).object
  have read : (state.invokes call.context).any Invoke.exhausted = flag := by simp [held]
  have earlier : ∀ {place now}, (state.leave thread call).running place = some now →
      place ≠ thread ∧ ∃ old, state.running place = some old ∧ now = old.disturb call.adapter := by
    intro place now found
    rcases running_set found with ⟨_, absurdity⟩ | before
    · cases absurdity
    · exact before
  constructor
  · intro place now found
    obtain ⟨apart, old, ran, rfl⟩ := earlier found
    have before := tidy.recorded place old ran
    obtain ⟨mark, kept, said⟩ := before.object
    have context : old.context ≠ call.context :=
      fun same => apart (tidy.apart _ _ _ _ ran running (.inl same))
    constructor <;> simp only [disturb_context, disturb_adapter, disturb_sink]
    · exact (update_of_ne apart _ _).trans before.thread
    · exact ⟨mark, (update_of_ne context _ _).trans kept, said.trans ended_finished.symm⟩
    · intro calm
      obtain ⟨calmBefore, other⟩ := disturb_false calm
      exact (update_of_ne other _ _).trans (before.current calmBefore)
    · exact before.young
    · intro mark member
      rcases mem_append.mp member with earlier | new
      · exact before.unspent mark earlier
      · injection mem_singleton.mp new with same
        exact apart (tidy.apart _ _ _ _ ran running (.inr same))
  · intro place none
    rcases idle_set none with ⟨rfl, _⟩ | ⟨other, before⟩
    · exact update_self _ _ _
    · exact (update_of_ne other _ _).trans (tidy.idle place before)
  · intro place other left right foundLeft foundRight same
    obtain ⟨_, first, beforeFirst, rfl⟩ := earlier foundLeft
    obtain ⟨_, second, beforeSecond, rfl⟩ := earlier foundRight
    simp only [disturb_context, disturb_sink] at same
    exact tidy.apart _ _ _ _ beforeFirst beforeSecond same
  · refine forall_mem_append.mpr ⟨tidy.past, forall_mem_singleton.mpr ?_⟩
    exact (tidy.recorded thread call running).young
  · constructor
    · intro sink adapter args outcome member
      have old : .emitted sink adapter args outcome ∈ state.log := by
        simpa [State.leave] using member
      exact tidy.faithful.own sink adapter args outcome old
    · intro sink mark member
      rw [State.leave, ended_finished]
      rcases mem_append.mp member with old | new
      · exact tidy.faithful.exhausted sink mark old
      · cases mem_singleton.mp new
        rw [read]
        exact ended

include tidy in
theorem emit_foreign (foreign : state.own thread args = none) :
    (state.emit floats operators thread args).2 = state := by
  have unmatched : (state.threadCurrent thread).filter (· = args.callbackContext) = none := by
    cases running : state.running thread with
    | none => simp [tidy.idle thread running]
    | some call =>
      rw [(tidy.recorded thread call running).thread]
      simp only [State.own, running] at foreign
      simpa [Option.filter, eq_comm] using foreign
  unfold State.emit
  rw [unmatched]
  split_ifs <;> rfl

include tidy in
theorem emit_own
    (own : state.own thread args = some call) (calm : call.disturbed = false) :
    (state.emit floats operators thread args).1 =
        expected floats (operators call.adapter) call.sink args ∧
      ((state.emit floats operators thread args).2 = state ∧
          (state.emit floats operators thread args).1 ≠ .marked call.sink ∨
        (state.emit floats operators thread args).1 = .marked call.sink ∧
          (state.emit floats operators thread args).2 =
            { state with
              invokes := update state.invokes call.context
                (some ⟨call.adapter, call.sink, true⟩) }) := by
  obtain ⟨running, context⟩ := filter_eq_some_iff.mp own
  have context : args.callbackContext = call.context := by simpa using context
  have recorded := tidy.recorded thread call running
  obtain ⟨flag, held, _⟩ := recorded.object
  have active : state.active call.adapter = some (call.context, ⟨call.adapter, call.sink, flag⟩) := by
    simp [State.active, recorded.current calm, held]
  have matched : (state.threadCurrent thread).filter (· = args.callbackContext) =
      some call.context := by
    simp [recorded.thread, context]
  unfold State.emit expected
  rw [matched]
  by_cases fits : args.headerOk = true
  · simp only [fits, held, State.doEmit, active]
    rcases args.outputPort with _ | port
    · simp
    · rcases args.packet with _ | view
      · simp
      · simp only
        rcases accept floats (operators call.adapter) view with status | packet
        · simp
        · cases packet <;> simp
  · simp [fits]

theorem ended_emitted {log : List Event} {sink other : Sink} {adapter : Adapter} {args : EmitArgs}
    {outcome : Outcome} : Ended (log ++ [.emitted other adapter args outcome]) sink ↔
      Ended log sink ∨ (sink = other ∧ outcome = .marked sink) := by
  unfold Ended
  constructor
  · rintro ⟨place, given, member⟩
    rcases mem_append.mp member with old | new
    · exact .inl ⟨place, given, old⟩
    · cases mem_singleton.mp new
      exact .inr ⟨rfl, rfl⟩
  · rintro (⟨place, given, old⟩ | ⟨rfl, rfl⟩)
    · exact ⟨place, given, mem_append_left _ old⟩
    · exact ⟨adapter, args, by simp⟩

include tidy in
theorem tidy_noted
    (running : state.running thread = some call) {invokes : Address → Option Invoke}
    (objects : ∀ place other, state.running place = some other →
      ∃ flag, invokes other.context = some ⟨other.adapter, other.sink, flag⟩ ∧
        (flag = true ↔ Ended (state.log ++ [.emitted call.sink call.adapter args
          (expected floats (operators call.adapter) call.sink args)]) other.sink)) :
    Tidy floats operators
      { state with
        invokes := invokes
        log := state.log ++ [.emitted call.sink call.adapter args
          (expected floats (operators call.adapter) call.sink args)] } := by
  refine ⟨?_, tidy.idle, tidy.apart, ?_, ?_, ?_⟩
  · intro place other found
    have before := tidy.recorded place other found
    exact ⟨before.thread, objects place other found, before.current, before.young,
      fun flag member => before.unspent flag (by simpa using member)⟩
  · refine forall_mem_append.mpr ⟨tidy.past, forall_mem_singleton.mpr ?_⟩
    exact (tidy.recorded thread call running).young
  · intro sink adapter given outcome member
    rcases mem_append.mp member with old | new
    · exact tidy.faithful.own sink adapter given outcome old
    · cases mem_singleton.mp new
      rfl
  · intro sink flag member
    have old : .finished sink flag ∈ state.log := by simpa using member
    have other : sink ≠ call.sink := by
      rintro rfl
      exact (tidy.recorded thread call running).unspent flag old
    rw [ended_emitted]
    simpa [other] using tidy.faithful.exhausted sink flag old

include tidy in
theorem tidy_emit {after : State} (calm : ∀ call ∈ state.own thread args, call.disturbed = false)
    (emitted : act floats operators state (.emit thread args) = some after) :
    Tidy floats operators after := by
  unfold act at emitted
  cases own : state.own thread args with
  | none =>
    simp only [own, some.injEq] at emitted
    rw [← emitted, emit_foreign tidy own]
    exact tidy
  | some call =>
    have running := (filter_eq_some_iff.mp own).1
    obtain ⟨outcome, effect⟩ := emit_own tidy own (calm call own)
    simp only [own, some.injEq] at emitted
    rw [outcome] at emitted effect
    rcases effect with ⟨same, unmarked⟩ | ⟨marked, changed⟩
    · rw [same] at emitted
      rw [← emitted]
      refine tidy_noted tidy running ?_
      intro place other found
      obtain ⟨flag, held, ended⟩ := (tidy.recorded place other found).object
      refine ⟨flag, held, ended.trans ?_⟩
      rw [ended_emitted]
      refine (or_iff_left ?_).symm
      rintro ⟨sink, mark⟩
      exact unmarked (sink ▸ mark)
    · rw [changed] at emitted
      rw [← emitted]
      refine tidy_noted tidy running ?_
      intro place other found
      by_cases here : place = thread
      · subst here
        cases running.symm.trans found
        exact ⟨true, update_self _ _ _, by simp [ended_emitted, marked]⟩
      · obtain ⟨flag, held, ended⟩ := (tidy.recorded place other found).object
        have context : other.context ≠ call.context :=
          fun same => here (tidy.apart _ _ _ _ found running (.inl same))
        have sink : other.sink ≠ call.sink :=
          fun same => here (tidy.apart _ _ _ _ found running (.inr same))
        refine ⟨flag, (update_of_ne context _ _).trans held, ended.trans ?_⟩
        simp [ended_emitted, sink]

theorem tidy_step {before after : State} (tidy : Tidy floats operators before)
    (taken : UndisturbedStep floats operators before after) : Tidy floats operators after := by
  obtain ⟨action, calm, done⟩ := taken
  cases action with
  | enter thread adapter address topologyVersion parameterVersion =>
    obtain ⟨free, same⟩ := ite_none_right_eq_some.mp done
    cases same
    exact tidy_enter tidy (isNone_iff_eq_none.mp free.1) (isNone_iff_eq_none.mp free.2)
  | emit thread args => exact tidy_emit tidy calm done
  | leave thread =>
    obtain ⟨call, running, rfl⟩ := map_eq_some_iff.mp done
    exact tidy_leave tidy running

end Invariant

/-- Along every run in which no call emits after another call of its operator began or ended
within it, every emit concerns its own call. -/
theorem emits_faithful (floats : FloatFormat) (operators : Adapter → OperatorInfo) {state : State}
    (reached : Reachable (· = {}) (UndisturbedStep floats operators) state) :
    Faithful floats operators state.log := by
  have tidy : Tidy floats operators state :=
    reachable_invariant (Tidy floats operators) (by rintro _ rfl; exact tidy_start)
      (fun _ _ _ tidy taken => tidy_step tidy taken) reached
  exact tidy.faithful

def someSource (_ : Adapter) : OperatorInfo := ⟨"src", true⟩

instance (state : State) (action : Action) : Decidable (Undisturbed state action) := by
  cases action <;> unfold Undisturbed <;> infer_instance

/-- Two calls of one operator overlap, and each emits before the other begins or ends in it. -/
def staggeredCalls : List Action :=
  [.enter 0 0 16 3 5, .emit 0 ⟨true, 16, some "out", some { flags := eosFlag }⟩,
    .enter 1 0 32 4 6, .emit 1 ⟨true, 32, some "out", some { typeTag := some "video/raw" }⟩,
    .leave 0, .leave 1]

theorem staggered_calls_faithful :
    ∃ state, Reachable (· = {}) (UndisturbedStep noFloats someSource) state ∧
      (.finished ⟨0, 3, 5⟩ true ∈ state.log ∧ .finished ⟨1, 4, 6⟩ false ∈ state.log) ∧
      Faithful noFloats someSource state.log := by
  have seen : (play (act noFloats someSource) Undisturbed {} staggeredCalls).map
      (fun state => decide (.finished ⟨0, 3, 5⟩ true ∈ state.log ∧
        .finished ⟨1, 4, 6⟩ false ∈ state.log)) = some true := by
    decide +kernel
  obtain ⟨state, reached, found⟩ := reachable_seen seen
  exact ⟨state, reached, by simpa using found, emits_faithful noFloats someSource reached⟩

/-- Two calls of one operator overlap: the packet of the first goes to the sink of the second. -/
def overlappingCalls : List Action :=
  [.enter 0 0 16 3 5, .enter 1 0 32 4 6,
    .emit 0 ⟨true, 16, some "out", some { typeTag := some "video/raw" }⟩]

theorem overlapping_calls_mixed : ∃ state, Reachable (· = {}) (Step noFloats someSource) state ∧
      ¬Faithful noFloats someSource state.log := by
  let packet : Packet := ⟨0, 0, 0, 0, "video/raw", none, none⟩
  let given : EmitArgs := ⟨true, 16, some "out", some { typeTag := some "video/raw" }⟩
  have seen : (overlappingCalls.foldlM (act noFloats someSource) {}).map State.log =
      some [.emitted ⟨0, 3, 5⟩ 0 given (.handed ⟨1, 4, 6⟩ "out" packet)] := by decide +kernel
  obtain ⟨state, played, log⟩ := map_eq_some_iff.mp seen
  refine ⟨state, reachable_played (fun _ action _ done => ⟨action, done⟩) (.initial rfl) played, ?_⟩
  intro faithful
  have mixed := faithful.own ⟨0, 3, 5⟩ 0 given (.handed ⟨1, 4, 6⟩ "out" packet) (by simp [log])
  revert mixed
  decide +kernel

end GraphEngine.EmitScopes
