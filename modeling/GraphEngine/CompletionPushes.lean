import GraphEngine.EmitScopes
import Mathlib.Data.List.Perm.Basic

/-!
Completion events from plugins (plugin_operator.cpp, async_runtime.cpp). An output comes with one
reference to its buffer, which a packet adopts and gives back when it is dropped. A type tag is its
text. What routing does with the packets of an event that was consumed is not modelled: the
consumer drops them.
-/

namespace GraphEngine.CompletionPushes

open Values JsonText Runs List
open EmitScopes (Packet metadataFromJson eosFlag droppedFlag)

abbrev Buffer := Nat

/-- A `ge_packet_view`, with what `HeaderOk` says of its header. -/
structure PacketView extends EmitScopes.PacketView where
  headerOk : Bool := true

structure CompletionOutput where
  outputPort : String
  packet : Packet

/-- A `ge_completion_event`. The arrays may be null. -/
structure EventView where
  headerOk : Bool := true
  requestId : Nat := 0
  sessionId : Nat := 0
  topologyVersion : Nat := 0
  parameterVersion : Nat := 0
  packetSeq : Nat := 0
  status : Option Status := none
  outputCount : Nat
  outputs : Option (Nat → PacketView)
  outputPorts : Option (Nat → Option String)

structure CompletionEvent where
  requestId : Nat
  sessionId : Nat
  topologyVersion : Nat
  parameterVersion : Nat
  packetSeq : Nat
  status : Option Status
  outputs : List CompletionOutput

structure CompletionSink where
  valid : Bool := true
  alive : Bool := true
  session : Nat := 1

/-- The references plugins handed over and those given back, in order, are history. -/
structure Completions where
  capacity : Nat
  queue : List CompletionEvent := []
  drained : List CompletionEvent := []
  handed : List Buffer := []
  released : List Buffer := []

variable (floats : FloatFormat)

def packetFromView (view : PacketView) : Result Packet := do
  if view.headerOk = false then throw (.invalidArgument "invalid packet view")
  if view.flags &&& (eosFlag ||| droppedFlag) ≠ 0 then
    throw (.invalidArgument "completion outputs may not carry EOS/DROPPED flags")
  let typeTag := view.typeTag.getD ""
  if typeTag = "" then throw (.invalidArgument "packet type_tag is required")
  let metadata ← match view.metadataJson.getD "" with
    | "" => pure none
    | json => some <$> metadataFromJson floats json
  return ⟨view.seq, view.ptsNs, view.dtsNs, view.flags, typeTag, metadata, view.payload⟩

def EventView.items (event : EventView) : List (String × PacketView) :=
  match event.outputs, event.outputPorts with
  | some outputs, some ports =>
    (range event.outputCount).map fun i => ((ports i).getD "", outputs i)
  | _, _ => []

/-- The loop over the outputs: those that could be read, and the first failure. -/
def readOutputs : List (String × PacketView) → List CompletionOutput × Option Status
  | [] => ([], none)
  | (port, view) :: rest =>
    match packetFromView floats view with
    | .error status => ((readOutputs rest).1, some status)
    | .ok packet => (⟨port, packet⟩ :: (readOutputs rest).1, (readOutputs rest).2)

def payloads (outputs : List CompletionOutput) : List Buffer :=
  outputs.filterMap fun output => output.packet.payload

/-- The buffers a rejection adopts and drops: those of no output that was read. -/
def leftover (items : List (String × PacketView)) (outputs : List CompletionOutput) : List Buffer :=
  items.filterMap fun item => item.2.payload.filter fun buffer => !(payloads outputs).contains buffer

def sinkPush (state : Completions) (sink : CompletionSink) (event : CompletionEvent) :
    Result Unit × Completions :=
  let dropped := { state with released := state.released ++ payloads event.outputs }
  if sink.alive = false then
    (.error (.cancelled s!"completion sink of session {sink.session} is closed"), dropped)
  else if state.capacity ≤ state.queue.length then
    (.error (.resourceExhausted "completion queue is full"), dropped)
  else
    let sessionId := if event.sessionId = 0 then sink.session else event.sessionId
    (.ok (), { state with queue := state.queue ++ [{ event with sessionId }] })

def completionPush (state : Completions) (sink : CompletionSink) (event : EventView) :
    Result Unit × Completions :=
  if sink.valid = false then
    (.error (.invalidArgument "invalid or closed completion sink"), state)
  else if event.headerOk = false then
    (.error (.invalidArgument "invalid completion event"), state)
  else if event.outputCount ≠ 0 ∧ (event.outputs.isNone ∨ event.outputPorts.isNone) then
    (.error (.invalidArgument "completion outputs without ports"), state)
  else
    let (outputs, bad) := readOutputs floats event.items
    match bad with
    | some status =>
      -- The packets that were read go with the event that is not pushed.
      (.error status, { state with
        released := state.released ++ (leftover event.items outputs ++ payloads outputs) })
    | none => sinkPush state sink ⟨event.requestId, event.sessionId, event.topologyVersion,
        event.parameterVersion, event.packetSeq, event.status, outputs⟩

def EventView.handed (event : EventView) : List Buffer :=
  match event.outputs with
  | some outputs => (range event.outputCount).filterMap fun i => (outputs i).payload
  | none => []

inductive Action where
  | push (sink : CompletionSink) (event : EventView)
  | drainAll
  | consume

def act (state : Completions) : Action → Option Completions
  | .push sink event =>
    some (completionPush floats { state with handed := state.handed ++ event.handed } sink event).2
  | .drainAll => some { state with queue := [], drained := state.drained ++ state.queue }
  | .consume => match state.drained with
    | event :: rest =>
      some { state with drained := rest, released := state.released ++ payloads event.outputs }
    | [] => none

def isRead (item : String × PacketView) : Bool := (packetFromView floats item.2).isOk

/-- Outputs come with ports, and none that is refused shares its buffer with one that is not. -/
def Separate (event : EventView) : Prop :=
  (event.outputs.isSome = true → event.outputCount ≠ 0 → event.outputPorts.isSome = true) ∧
    ∀ kept ∈ event.items, isRead floats kept = true →
      ∀ refused ∈ event.items, isRead floats refused = false →
        kept.2.payload = refused.2.payload → kept.2.payload = none

instance (event : EventView) : Decidable (Separate floats event) := instDecidableAnd

def allowed (_ : Completions) : Action → Prop
  | .push sink event =>
    sink.valid = true ∧ sink.alive = true ∧ event.headerOk = true ∧ Separate floats event
  | .drainAll | .consume => True

instance (state : Completions) (action : Action) : Decidable (allowed floats state action) := by
  cases action <;> unfold allowed <;> infer_instance

def Completions.held (state : Completions) : List Buffer :=
  (state.drained ++ state.queue).flatMap fun event => payloads event.outputs

variable {floats}

theorem packet_payload {view : PacketView} {packet : Packet}
    (read : packetFromView floats view = .ok packet) : packet.payload = view.payload := by
  unfold packetFromView at read
  simp only [bind, Except.bind] at read
  repeat' split at read
  all_goals cases read
  all_goals rfl

theorem payloads_read (items : List (String × PacketView)) : payloads (readOutputs floats items).1 =
      (items.filter (isRead floats)).filterMap fun item => item.2.payload := by
  induction items with
  | nil => rfl
  | cons item rest ih =>
    cases read : packetFromView floats item.2 with
    | error status => simpa [readOutputs, isRead, read, Except.toBool] using ih
    | ok packet =>
      simp only [payloads] at ih
      simp [readOutputs, isRead, read, Except.toBool, payloads, filterMap_cons,
        packet_payload read, ih]

theorem all_read {items : List (String × PacketView)} (fine : (readOutputs floats items).2 = none) :
    items.filter (isRead floats) = items := by
  induction items with
  | nil => rfl
  | cons item rest ih =>
    cases read : packetFromView floats item.2 with
    | error status => simp [readOutputs, read] at fine
    | ok packet =>
      simp only [readOutputs, read] at fine
      simp [isRead, read, Except.toBool, ih fine]

variable {event : EventView}

variable (separate : Separate floats event)
include separate

theorem items_handed : event.items.filterMap (fun item => item.2.payload) = event.handed := by
  unfold EventView.items EventView.handed
  cases outputs : event.outputs with
  | none => rfl
  | some views =>
    cases ports : event.outputPorts with
    | some names => simp
    | none =>
      have empty : event.outputCount = 0 := by
        by_contra some_
        simpa [ports] using separate.1 (by simp [outputs]) some_
      simp [empty]

theorem leftover_refused : leftover event.items (readOutputs floats event.items).1 =
      (event.items.filter fun item => !isRead floats item).filterMap fun item =>
        item.2.payload := by
  rw [leftover, payloads_read]
  conv_rhs => rw [filterMap_filter]
  refine filterMap_congr fun item inside => ?_
  cases payload : item.2.payload with
  | none => simp
  | some buffer =>
    cases read : isRead floats item with
    | true =>
      have kept : ∃ other ∈ event.items, isRead floats other = true ∧
          other.2.payload = some buffer := ⟨item, inside, read, payload⟩
      simpa using kept
    | false =>
      have apart : ∀ other ∈ event.items, isRead floats other = true →
          other.2.payload ≠ some buffer := by
        intro other within kept same
        have none_ := separate.2 other within kept item inside read (same.trans payload.symm)
        simp [same] at none_
      simpa using apart

theorem rejected_perm : (leftover event.items (readOutputs floats event.items).1 ++
      payloads (readOutputs floats event.items).1).Perm event.handed := by
  rw [leftover_refused separate, payloads_read, ← filterMap_append, ← items_handed separate]
  refine List.Perm.filterMap _ (perm_append_comm.trans ?_)
  exact filter_append_perm (isRead floats) event.items

omit separate

/-- An event is accepted with all its references, or they are all given back. -/
inductive Pushed (state : Completions) (handed : List Buffer) : Result Unit × Completions → Prop where
  | accepted (event : CompletionEvent) (same : payloads event.outputs = handed) :
    Pushed state handed (.ok (), { state with queue := state.queue ++ [event] })
  | rejected (status : Status) (back : List Buffer) (same : back.Perm handed) :
    Pushed state handed (.error status, { state with released := state.released ++ back })

theorem sinkPush_pushed (state : Completions) (sink : CompletionSink) (event : CompletionEvent) :
    Pushed state (payloads event.outputs) (sinkPush state sink event) := by
  unfold sinkPush
  split
  · exact .rejected _ _ (.refl _)
  split
  · exact .rejected _ _ (.refl _)
  · exact .accepted _ rfl

theorem completionPush_pushed (state : Completions) {sink : CompletionSink}
    (valid : sink.valid = true) (header : event.headerOk = true)
    (separate : Separate floats event) :
    Pushed state event.handed (completionPush floats state sink event) := by
  simp only [completionPush, valid, header, Bool.true_eq_false, ↓reduceIte]
  split
  · next missing =>
      have nothing : event.handed = [] := by
        cases outputs : event.outputs with
        | none => simp [EventView.handed, outputs]
        | some views =>
          have ports := separate.1 (by simp [outputs]) missing.1
          rcases missing.2 with absent | absent
          · simp [outputs] at absent
          · simp [Option.isNone_iff_eq_none.mp absent] at ports
      rw [nothing]
      simpa using @Pushed.rejected state [] (.invalidArgument "completion outputs without ports") []
        (.refl _)
  · split
    · exact .rejected _ _ (rejected_perm separate)
    rename_i fine
    have all : payloads (readOutputs floats event.items).1 = event.handed := by
      rw [payloads_read, all_read fine, items_handed separate]
    rw [← all]
    exact sinkPush_pushed state sink ⟨event.requestId, _, _, _, _, _, _⟩

theorem held_enqueue (state : Completions) (event : CompletionEvent) :
    Completions.held { state with queue := state.queue ++ [event] } =
      state.held ++ payloads event.outputs := by
  simp [Completions.held]

theorem act_balance {before after : Completions}
    (balanced : before.handed.Perm (before.held ++ before.released))
    (taken : Acts (act floats) (allowed floats) before after) :
    after.handed.Perm (after.held ++ after.released) := by
  obtain ⟨action, may, acted⟩ := taken
  cases action with
  | push sink event =>
    obtain ⟨valid, _, header, separate⟩ := may
    have pushed := completionPush_pushed { before with handed := before.handed ++ event.handed }
      valid header separate
    simp only [act] at acted
    generalize completionPush floats _ sink event = result at acted pushed
    cases pushed with
    | accepted _ same =>
      cases acted
      rw [held_enqueue, same]
      refine (balanced.append_right event.handed).trans ?_
      simp only [append_assoc]
      exact perm_append_comm.append_left before.held
    | rejected _ back same =>
      cases acted
      refine (balanced.append same.symm).trans ?_
      simp only [append_assoc]
      exact .refl _
  | drainAll =>
    cases acted
    simpa [Completions.held] using balanced
  | consume =>
    simp only [act] at acted
    split at acted <;> cases acted
    next event rest front =>
      refine balanced.trans ?_
      simp only [Completions.held, front, cons_append, flatMap_cons]
      simp only [append_assoc]
      refine perm_append_comm.trans ?_
      simp only [append_assoc]
      exact .refl _

/-- In a run of events that are `Separate` every reference that was handed over is either held or
was given back, once. An event that is accepted holds its references; one that is rejected has
given them back when the push returns. -/
theorem references_released_once {capacity : Nat} {state : Completions}
    (reached : Reachable (· = { capacity }) (Acts (act floats) (allowed floats)) state) :
    state.handed.Perm (state.held ++ state.released) ∧
    ∀ sink event, sink.valid = true → sink.alive = true → event.headerOk = true →
      Separate floats event →
      match completionPush floats state sink event with
      | (.ok _, after) => after.held = state.held ++ event.handed ∧ after.released = state.released
      | (.error _, after) =>
        after.held = state.held ∧ after.released.Perm (state.released ++ event.handed) := by
  constructor
  · refine reachable_invariant (fun state => state.handed.Perm (state.held ++ state.released)) ?_ ?_
      reached
    · rintro _ rfl
      exact .refl _
    · exact fun _ _ _ balanced taken => act_balance balanced taken
  · intro sink event valid _ header separate
    have pushed := completionPush_pushed state valid header separate
    generalize completionPush floats state sink event = result at pushed
    cases pushed with
    | accepted _ same => exact ⟨by rw [held_enqueue, same], rfl⟩
    | rejected _ back same => exact ⟨rfl, same.append_left state.released⟩

def sharing (tags : List String) (buffer : Buffer) : EventView where
  outputCount := tags.length
  outputs := some fun i => { typeTag := tags[i]?, payload := some buffer }
  outputPorts := some fun _ => some "out"

/-- Two outputs with one buffer are queued and consumed, two that are refused are given back. -/
theorem shared_buffer_released :
    ∃ state, Reachable (· = { capacity := 1 }) (Acts (act noFloats) (allowed noFloats)) state ∧
      (state.handed = [7, 7, 8, 8, 9] ∧ state.released = [8, 8, 9, 7, 7] ∧ state.held = []) ∧
      state.handed.Perm (state.held ++ state.released) := by
  have played : (play (act noFloats) (allowed noFloats) { capacity := 1 }
      [.push {} (sharing ["video", "video"] 7), .push {} (sharing ["", ""] 8),
        .push {} (sharing ["video"] 9), .drainAll, .consume]).map
          (fun state => (state.handed, state.released, state.held)) =
      some ([7, 7, 8, 8, 9], [8, 8, 9, 7, 7], []) := by
    decide +kernel
  obtain ⟨state, reached, seen⟩ := reachable_seen played
  simp only [Prod.mk.injEq] at seen
  exact ⟨state, reached, seen, (references_released_once reached).1⟩

/-- An output that is refused shares its buffer with one that is not: two references are handed
over and one is given back. -/
theorem shared_reference_lost :
    let event := sharing ["video", ""] 7
    let result := completionPush noFloats { capacity := 1 } {} event
    event.headerOk = true ∧ event.handed = [7, 7] ∧ result.1.isOk = false ∧
      result.2.released = [7] ∧ result.2.held = [] := by
  decide +kernel

end GraphEngine.CompletionPushes
