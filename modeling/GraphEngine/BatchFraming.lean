import GraphEngine.JsonText
import GraphEngine.NodeRuntimes
import GraphEngine.Runs

/-!
The batcher of the asynchronous runtime (async_runtime.cpp): how `Submit` groups requests, and how
`FlushBatch` hands a group to the operators. Every section under `state_mutex_`, every atomic and
every operator call is one step of its thread; a request draws its id in the step that inserts
it, since nothing else reads the counter. Which batches are due is left to a choice, and so is the
moment at which a request leaves the table because its result was delivered. What an operator
answers changes no framing and is left out.
-/

namespace GraphEngine.BatchFraming

open Values JsonText OrderedMaps NodeRuntimes Runs Function Option
open List hiding keys

abbrev Thread := Nat

structure BatchKey where
  operatorKey : String
  model : String
  deviceId : Int
  parameters : String
  deriving DecidableEq

structure NodeBatchConfig where
  enabled : Bool := true
  maxBatch : Option Nat := none
  deriving DecidableEq

/-- `NodeBatchConfig::FromOptions` without the timeout. -/
def NodeBatchConfig.fromOptions : JsonValue → NodeBatchConfig
  | .object fields =>
    match find "batch" fields with
    | some (.bool enabled) => { enabled := enabled }
    | some (.object batch) =>
      { enabled := match find "enabled" batch with
          | some (.bool enabled) => enabled
          | _ => true
        maxBatch := match find "max_batch" batch with
          | some (.integer count) => if 1 ≤ count then some (min count 1024).toNat else none
          | _ => none }
    | _ => {}
  | _ => {}

structure NodeInfo where
  operatorKey : OperatorKey
  options : JsonValue := .null

structure Setup where
  batching : Bool := true
  maxBatch : Nat := 8
  nodes : NodeRef → NodeInfo

/-- `nodeDevice` and `defaultDevice` are what the topology says of the node and of the graph. -/
structure SubmitArgs where
  node : NodeRef
  session : Nat
  deviceId : Int := -1
  nodeDevice : Option Int := none
  defaultDevice : Option Int := none
  parameters : JsonValue := .object []

def SubmitArgs.deviceOf (args : SubmitArgs) : Int := (args.nodeDevice <|> args.defaultDevice).getD (-1)

def modelOf : JsonValue → String
  | .object fields =>
    match find "model" fields with
    | some (.string model) => model
    | _ => ""
  | _ => ""

def Setup.key (setup : Setup) (floats : FloatFormat) (args : SubmitArgs) : BatchKey where
  operatorKey := (setup.nodes args.node).operatorKey.render
  model := modelOf (setup.nodes args.node).options
  deviceId := if args.deviceId = -1 then args.deviceOf else args.deviceId
  parameters := serialize floats args.parameters

def Setup.limit (setup : Setup) (node : NodeRef) : Nat :=
  (NodeBatchConfig.fromOptions (setup.nodes node).options).maxBatch.getD setup.maxBatch

def Setup.batches (setup : Setup) (node : NodeRef) : Bool :=
  setup.batching && (NodeBatchConfig.fromOptions (setup.nodes node).options).enabled &&
    1 < setup.limit node

section Machine

structure Entry where
  node : NodeRef
  session : Nat
  deriving DecidableEq

inductive Stage where
  /-- The batch has its number; `submit_mutex_` is still to be taken. -/
  | waiting
  /-- At the head of the loop. -/
  | looking
  /-- The entry of the request was read. -/
  | calling (request : Nat) (node : NodeRef)
  deriving DecidableEq

def Stage.target : Stage → Option NodeRef
  | .calling _ node => some node
  | _ => none

structure Flush where
  batch : Nat
  members : List Nat
  index : Nat := 0
  stage : Stage := .waiting
  deriving DecidableEq

/-- A call of an operator's `Submit`; every node has an operator instance of its own. -/
structure SubmitCall where
  thread : Thread
  node : NodeRef
  request : Nat
  batch : Nat
  index : Nat
  size : Nat
  deriving DecidableEq

/-- `ready` holds the batches a thread took out for flushing. The calls of operators and the
batches that were flushed, with their members, are kept as history. -/
structure State where
  sessions : Nat → Option Bool := fun _ => none
  inFlight : Nat → Option Entry := fun _ => none
  batches : BatchKey → List Nat := fun _ => []
  cancelled : NodeRef → Bool := fun _ => false
  nextRequest : Nat := 1
  nextBatch : Nat := 1
  submitMutex : Option Thread := none
  ready : Thread → List (List Nat) := fun _ => []
  flush : Thread → Option Flush := fun _ => none
  calls : List SubmitCall := []
  flushed : List (Nat × List Nat) := []

inductive Action where
  | attach (session : Nat) (batching : Bool)
  | submit (thread : Thread) (args : SubmitArgs)
  | flushDue (thread : Thread) (keys : List BatchKey)
  | begin (thread : Thread)
  | lock (thread : Thread)
  | look (thread : Thread)
  | call (thread : Thread)
  | unlock (thread : Thread)
  | cancel (node : NodeRef)
  | retire (request : Nat)
  | detach (session : Nat)

variable (setup : Setup) (floats : FloatFormat)

def State.parks (state : State) (args : SubmitArgs) : Bool :=
  (state.sessions args.session).getD false && setup.batches args.node

def State.place (state : State) (entry : Entry) : State :=
  { state with
    inFlight := update state.inFlight state.nextRequest (some entry)
    nextRequest := state.nextRequest + 1 }

/-- The locked section of `Submit`. -/
def State.submit (state : State) (thread : Thread) (args : SubmitArgs) : State :=
  let placed := state.place ⟨args.node, args.session⟩
  if state.parks setup args then
    let key := setup.key floats args
    let members := state.batches key ++ [state.nextRequest]
    if setup.limit args.node ≤ members.length then
      { placed with
        batches := update state.batches key []
        ready := update state.ready thread [members] }
    else { placed with batches := update state.batches key members }
  else { placed with ready := update state.ready thread [[state.nextRequest]] }

/-- The locked section of `FlushDueBatches`. -/
def State.flushDue (state : State) (thread : Thread) (keys : List BatchKey) : State :=
  { state with
    batches := fun key => if key ∈ keys then [] else state.batches key
    ready := update state.ready thread (keys.dedup.map state.batches) }

/-- The start of `FlushBatch`. -/
def State.begin (state : State) (thread : Thread) (members : List Nat) (rest : List (List Nat)) :
    State :=
  let taken := { state with ready := update state.ready thread rest }
  if members = [] then taken
  else { taken with
    nextBatch := state.nextBatch + 1
    flush := update state.flush thread
      (some { batch := state.nextBatch, members := members }) }

def State.setFlush (state : State) (thread : Thread) (flush : Flush) : State :=
  { state with flush := update state.flush thread (some flush) }

/-- The locked section of the loop in `FlushBatch`. -/
def State.look (state : State) (thread : Thread) (flush : Flush) (request : Nat) : State :=
  match state.inFlight request with
  -- The session was detached meanwhile.
  | none => state.setFlush thread { flush with index := flush.index + 1 }
  | some entry => state.setFlush thread { flush with stage := .calling request entry.node }

def State.call (state : State) (thread : Thread) (flush : Flush) (request : Nat) (node : NodeRef) :
    State :=
  let passed := state.setFlush thread { flush with index := flush.index + 1, stage := .looking }
  if state.cancelled node then passed
  else { passed with
    calls := state.calls ++
      [⟨thread, node, request, flush.batch, flush.index, flush.members.length⟩] }

def State.unlock (state : State) (thread : Thread) (flush : Flush) : State :=
  { state with
    submitMutex := none
    flush := update state.flush thread none
    flushed := state.flushed ++ [(flush.batch, flush.members)] }

/-- The locked section of `DetachSession`. -/
def State.detach (state : State) (session : Nat) : State :=
  { state with
    sessions := update state.sessions session none
    batches := fun key => (state.batches key).filter fun id =>
      !(state.inFlight id).any fun entry => entry.session = session
    inFlight := fun id => (state.inFlight id).filter fun entry => entry.session ≠ session }

def State.idle (state : State) (thread : Thread) : Bool :=
  state.ready thread = [] && (state.flush thread).isNone

def act (state : State) : Action → Option State
  | .attach session batching =>
    some { state with sessions := update state.sessions session (some batching) }
  | .submit thread args =>
    if state.idle thread then some (state.submit setup floats thread args) else none
  | .flushDue thread keys => if state.idle thread then some (state.flushDue thread keys) else none
  | .begin thread =>
    match state.ready thread, state.flush thread with
    | members :: rest, none => some (state.begin thread members rest)
    | _, _ => none
  | .lock thread =>
    match state.flush thread, state.submitMutex with
    | some ⟨batch, members, index, .waiting⟩, none =>
      some { state.setFlush thread ⟨batch, members, index, .looking⟩ with
        submitMutex := some thread }
    | _, _ => none
  | .look thread =>
    match state.flush thread with
    | some ⟨batch, members, index, .looking⟩ =>
      members[index]?.map fun request =>
        state.look thread ⟨batch, members, index, .looking⟩ request
    | _ => none
  | .call thread =>
    match state.flush thread with
    | some ⟨batch, members, index, .calling request node⟩ =>
      some (state.call thread ⟨batch, members, index, .calling request node⟩ request node)
    | _ => none
  | .unlock thread =>
    match state.flush thread with
    | some ⟨batch, members, index, .looking⟩ =>
      if members.length ≤ index then
        some (state.unlock thread ⟨batch, members, index, .looking⟩)
      else none
    | _ => none
  | .cancel node => some { state with cancelled := update state.cancelled node true }
  | .retire request => some { state with inFlight := update state.inFlight request none }
  | .detach session => if (state.sessions session).isSome then some (state.detach session) else none

def Step (before after : State) : Prop := ∃ action, act setup floats before action = some after

def Start (state : State) : Prop := state = {}

end Machine

section Property

structure Frame (thread : Thread) (node : NodeRef) (batch : Nat) (members : List Nat)
    (count : Nat) (calls : List SubmitCall) : Prop where
  same : ∀ call ∈ calls, call.thread = thread ∧ call.node = node ∧ call.batch = batch ∧
    call.size = members.length
  indices : calls.map SubmitCall.index = range count
  requests : calls.map SubmitCall.request = members.take count

/-- The calls of a batch stand together, and they are one for every index, on one instance. -/
def Framed (calls : List SubmitCall) (batch : Nat) (members : List Nat) : Prop :=
  ∃ thread node before frame after, calls = before ++ frame ++ after ∧
    Frame thread node batch members members.length frame ∧
    (∀ call ∈ before, call.batch ≠ batch) ∧ ∀ call ∈ after, call.batch ≠ batch

structure WellFramed (state : State) : Prop where
  framed : ∀ batch members, (batch, members) ∈ state.flushed → Framed state.calls batch members
  numbers : (state.flushed.map Prod.fst).Nodup

variable (setup : Setup) (floats : FloatFormat)

/-- Requests are parked only with requests of the same node. When the flush of a batch comes to a
member, the member is still in flight, and its node is not cancelled when it is called. -/
def Steady (before : State) : Action → Prop
  | .submit _ args => before.parks setup args = true →
      ∀ id ∈ before.batches (setup.key floats args), ∀ entry ∈ before.inFlight id,
        entry.node = args.node
  | .look thread => ∀ flush ∈ before.flush thread, ∀ request ∈ flush.members[flush.index]?,
      (before.inFlight request).isSome = true
  | .call thread => ∀ flush ∈ before.flush thread, ∀ node ∈ flush.stage.target,
      before.cancelled node = false
  | _ => True

def SteadyStep (before after : State) : Prop :=
  ∃ action, Steady setup floats before action ∧ act setup floats before action = some after

end Property

section Groups

def Agreed (state : State) (node : NodeRef) (ids : List Nat) : Prop :=
  ∀ id ∈ ids, ∀ entry, state.inFlight id = some entry → entry.node = node

structure Fit (state : State) (ids : List Nat) : Prop where
  known : ∀ id ∈ ids, id < state.nextRequest
  agreed : ∃ node, Agreed state node ids

/-- Requests known before have left the table or kept their entry. -/
structure Aged (before after : State) : Prop where
  next : before.nextRequest ≤ after.nextRequest
  entries : ∀ id < before.nextRequest, ∀ entry, after.inFlight id = some entry →
    before.inFlight id = some entry

variable {before after : State} {ids : List Nat}

theorem agreed_aged (aged : Aged before after) {node : NodeRef}
    (known : ∀ id ∈ ids, id < before.nextRequest) (agreed : Agreed before node ids) :
    Agreed after node ids :=
  fun id member entry found => agreed id member entry (aged.entries id (known id member) entry found)

theorem Fit.aged (fit : Fit before ids) (aged : Aged before after) : Fit after ids := by
  obtain ⟨node, agreed⟩ := fit.agreed
  exact ⟨fun id member => (fit.known id member).trans_le aged.next, node,
    agreed_aged aged fit.known agreed⟩

theorem Fit.subset {fewer : List Nat} (fit : Fit before ids) (inside : fewer ⊆ ids) :
    Fit before fewer := by
  obtain ⟨node, agreed⟩ := fit.agreed
  exact ⟨fun id member => fit.known id (inside member), node,
    fun id member => agreed id (inside member)⟩

end Groups

section Frames

variable {thread : Thread} {node : NodeRef} {batch count request : Nat} {members : List Nat}
  {calls extra : List SubmitCall}

theorem frame_nil : Frame thread node batch members 0 [] := ⟨nofun, rfl, rfl⟩

theorem frame_snoc (frame : Frame thread node batch members count calls)
    (next : members[count]? = some request) : Frame thread node batch members (count + 1)
      (calls ++ [⟨thread, node, request, batch, count, members.length⟩]) := by
  constructor
  · refine forall_mem_append.mpr ⟨frame.same, forall_mem_singleton.mpr ?_⟩
    exact ⟨rfl, rfl, rfl, rfl⟩
  · rw [map_append, frame.indices, range_succ]
    rfl
  · rw [map_append, frame.requests, take_add_one, next]
    rfl

theorem Framed.append (framed : Framed calls batch members)
    (others : ∀ call ∈ extra, call.batch ≠ batch) : Framed (calls ++ extra) batch members := by
  obtain ⟨thread, node, earlier, frame, later, rfl, shape, apartBefore, apartAfter⟩ := framed
  refine ⟨thread, node, earlier, frame, later ++ extra, append_assoc _ _ _, shape,
    apartBefore, ?_⟩
  intro call member
  exact (mem_append.mp member).elim (apartAfter call) (others call)

end Frames

section Flushes

/-- A flush that is under way: the calls it made are the last ones, and the node of every member
still in flight is the node called so far. -/
structure Current (state : State) (thread : Thread) (node : NodeRef) (flush : Flush) : Prop where
  numbered : flush.batch < state.nextBatch
  known : ∀ id ∈ flush.members, id < state.nextRequest
  agreed : Agreed state node flush.members
  within : flush.index ≤ flush.members.length
  holds : flush.stage ≠ .waiting → state.submitMutex = some thread
  fresh : flush.stage = .waiting → flush.index = 0
  called : ∀ request other, flush.stage = .calling request other →
    flush.members[flush.index]? = some request ∧ other = node
  framed : ∃ earlier frame, state.calls = earlier ++ frame ∧
    Frame thread node flush.batch flush.members flush.index frame ∧
    ∀ call ∈ earlier, call.batch ≠ flush.batch

structure Sound (state : State) : Prop where
  parked : ∀ key, Fit state (state.batches key)
  ready : ∀ thread, ∀ ids ∈ state.ready thread, Fit state ids
  current : ∀ thread flush, state.flush thread = some flush →
    ∃ node, Current state thread node flush
  distinct : ∀ thread other left right, state.flush thread = some left →
    state.flush other = some right → left.batch = right.batch → thread = other
  past : ∀ batch members, (batch, members) ∈ state.flushed →
    batch < state.nextBatch ∧ Framed state.calls batch members ∧
      ∀ thread flush, state.flush thread = some flush → flush.batch ≠ batch
  numbers : (state.flushed.map Prod.fst).Nodup
  recent : ∀ call ∈ state.calls, call.batch < state.nextBatch

/-- A step of one flush or of none: the flushes of the other threads stay, the calls made are of
the flush, and another thread that holds the mutex sees no call. -/
structure Passed (actor : Option Thread) (extra : List SubmitCall) (before after : State) :
    Prop extends Aged before after where
  others : ∀ place, some place ≠ actor → after.flush place = before.flush place
  born : ∀ place flush, some place = actor → after.flush place = some flush →
    (∃ past, before.flush place = some past ∧ past.batch = flush.batch) ∨
      flush.batch = before.nextBatch
  nextBatch : before.nextBatch ≤ after.nextBatch
  calls : after.calls = before.calls ++ extra
  mutex : ∀ other, some other ≠ actor → before.submitMutex = some other →
    after.submitMutex = some other ∧ extra = []
  own : ∀ call ∈ extra, ∃ place past, some place = actor ∧ before.flush place = some past ∧
    call.batch = past.batch

variable {before after state : State} {actor : Option Thread} {extra : List SubmitCall}
  {thread : Thread} {node : NodeRef} {flush : Flush}

theorem Current.passed (current : Current before thread node flush)
    (passed : Passed actor extra before after) (other : some thread ≠ actor)
    (apart : ∀ call ∈ extra, call.batch ≠ flush.batch) : Current after thread node flush := by
  obtain ⟨earlier, frame, split, shape, old⟩ := current.framed
  refine ⟨current.numbered.trans_le passed.nextBatch,
    fun id member => (current.known id member).trans_le passed.next,
    agreed_aged passed.toAged current.known current.agreed, current.within,
    fun busy => (passed.mutex thread other (current.holds busy)).1, current.fresh, current.called, ?_⟩
  by_cases waiting : flush.stage = .waiting
  -- No call was made for this flush so far.
  · rw [current.fresh waiting] at shape ⊢
    have none : frame = [] := map_eq_nil_iff.mp shape.indices
    refine ⟨before.calls ++ extra, [], by rw [passed.calls, append_nil], frame_nil, ?_⟩
    intro call member
    rw [split, none, append_nil] at member
    exact (mem_append.mp member).elim (old call) (apart call)
  · refine ⟨earlier, frame, ?_, shape, old⟩
    rw [passed.calls, (passed.mutex thread other (current.holds waiting)).2, append_nil, split]

theorem Sound.older (sound : Sound state) (found : state.flush thread = some flush) :
    flush.batch < state.nextBatch := by
  obtain ⟨_, current⟩ := sound.current thread flush found
  exact current.numbered

/-- Groups stay fit when each group afterwards is one from before or was just shown to be fit;
so with the flushes and the flushed batches. -/
theorem Sound.passed (sound : Sound before) (passed : Passed actor extra before after)
    (parked : ∀ key, Fit after (after.batches key) ∨ after.batches key ⊆ before.batches key)
    (ready : ∀ place, ∀ ids ∈ after.ready place, Fit after ids ∨ ids ∈ before.ready place)
    (current : ∀ place flush, some place = actor → after.flush place = some flush →
      ∃ node, Current after place node flush)
    (flushed : ∀ batch members, (batch, members) ∈ after.flushed →
      (batch, members) ∈ before.flushed ∨ batch < after.nextBatch ∧
        Framed after.calls batch members ∧
        ∀ place flush, after.flush place = some flush → flush.batch ≠ batch)
    (numbers : (after.flushed.map Prod.fst).Nodup) : Sound after := by
  -- A flush afterwards has the number of the flush its thread had before, or the next one.
  have origin : ∀ place flush, after.flush place = some flush →
      (∃ past, before.flush place = some past ∧ past.batch = flush.batch) ∨
        some place = actor ∧ flush.batch = before.nextBatch := by
    intro place flush found
    by_cases acts : some place = actor
    · exact (passed.born place flush acts found).imp_right fun new => ⟨acts, new⟩
    · exact .inl ⟨flush, passed.others place acts ▸ found, rfl⟩
  refine ⟨?_, ?_, ?_, ?_, ?_, numbers, ?_⟩
  · intro key
    rcases parked key with fit | inside
    · exact fit
    · exact ((sound.parked key).aged passed.toAged).subset inside
  · intro place ids member
    rcases ready place ids member with fit | old
    · exact fit
    · exact (sound.ready place ids old).aged passed.toAged
  · intro place flush found
    by_cases acts : some place = actor
    · exact current place flush acts found
    · rw [passed.others place acts] at found
      obtain ⟨node, held⟩ := sound.current place flush found
      refine ⟨node, held.passed passed acts ?_⟩
      intro call member clash
      obtain ⟨mover, past, moves, running, same⟩ := passed.own call member
      exact acts (sound.distinct place mover flush past found running (clash.symm.trans same) ▸ moves)
  · intro place other left right foundLeft foundRight clash
    rcases origin place left foundLeft with ⟨oldLeft, wasLeft, left⟩ | ⟨actsLeft, left⟩
    · rcases origin other right foundRight with ⟨oldRight, wasRight, right⟩ | ⟨_, right⟩
      · exact sound.distinct place other oldLeft oldRight wasLeft wasRight
          (left.trans (clash.trans right.symm))
      · exact absurd (left.trans (clash.trans right)) (sound.older wasLeft).ne
    · rcases origin other right foundRight with ⟨oldRight, wasRight, right⟩ | ⟨actsRight, _⟩
      · exact absurd (right.trans (clash.symm.trans left)) (sound.older wasRight).ne
      · exact some.inj (actsLeft.trans actsRight.symm)
  · intro batch members member
    rcases flushed batch members member with old | new
    · obtain ⟨numbered, framed, apart⟩ := sound.past batch members old
      refine ⟨numbered.trans_le passed.nextBatch, ?_, ?_⟩
      · rw [passed.calls]
        refine framed.append fun call new => ?_
        obtain ⟨mover, past, _, running, same⟩ := passed.own call new
        exact same.trans_ne (apart mover past running)
      · intro place flush found
        rcases origin place flush found with ⟨past, was, same⟩ | ⟨_, next⟩
        · exact same ▸ apart place past was
        · exact next ▸ numbered.ne'
    · exact new
  · intro call member
    rw [passed.calls] at member
    rcases mem_append.mp member with early | new
    · exact (sound.recent call early).trans_le passed.nextBatch
    · obtain ⟨mover, past, _, running, same⟩ := passed.own call new
      exact same.trans_lt ((sound.older running).trans_le passed.nextBatch)

structure Quiet (before after : State) : Prop extends Aged before after where
  flush : after.flush = before.flush
  nextBatch : after.nextBatch = before.nextBatch
  submitMutex : after.submitMutex = before.submitMutex
  calls : after.calls = before.calls
  flushed : after.flushed = before.flushed

theorem Sound.quiet (sound : Sound before) (quiet : Quiet before after)
    (parked : ∀ key, Fit after (after.batches key) ∨ after.batches key ⊆ before.batches key)
    (ready : ∀ place, ∀ ids ∈ after.ready place, Fit after ids ∨ ids ∈ before.ready place) :
    Sound after := by
  refine @Sound.passed before after none [] sound ⟨quiet.toAged, fun place _ => congrFun quiet.flush place,
    nofun, quiet.nextBatch.ge, ?_, ?_, nofun⟩ parked ready nofun ?_ ?_
  · rw [quiet.calls, append_nil]
  · exact fun _ _ held => ⟨quiet.submitMutex.trans held, rfl⟩
  · exact fun _ _ member => Or.inl (quiet.flushed ▸ member)
  · exact quiet.flushed ▸ sound.numbers

theorem Sound.moved {old new : Flush} (sound : Sound state)
    (running : state.flush thread = some old)
    (free : ∀ other, other ≠ thread → state.submitMutex ≠ some other)
    (flush : after.flush = update state.flush thread (some new))
    (calls : after.calls = state.calls ++ extra) (same : new.batch = old.batch)
    (own : ∀ call ∈ extra, call.batch = old.batch)
    (rest : after.inFlight = state.inFlight ∧ after.nextRequest = state.nextRequest ∧
      after.batches = state.batches ∧ after.ready = state.ready ∧
      after.nextBatch = state.nextBatch ∧ after.flushed = state.flushed)
    (current : Current after thread node new) : Sound after := by
  obtain ⟨inFlight, nextRequest, batches, ready, nextBatch, flushed⟩ := rest
  have found : ∀ place flush, some place = some thread → after.flush place = some flush →
      place = thread ∧ flush = new := by
    rintro _ _ ⟨⟩ found
    rw [‹after.flush = _›, update_self] at found
    exact ⟨rfl, (some.inj found).symm⟩
  refine @Sound.passed state after (some thread) extra sound ⟨⟨nextRequest.ge, ?_⟩, ?_, ?_,
    nextBatch.ge, calls, ?_, ?_⟩ ?_ ?_ ?_ ?_ (flushed ▸ sound.numbers)
  · exact fun _ _ _ found => inFlight ▸ found
  · exact fun place apart => flush ▸ update_of_ne (fun same => apart (congrArg some same)) _ _
  · intro place next acts reached
    obtain ⟨rfl, rfl⟩ := found place next acts reached
    exact .inl ⟨old, running, same.symm⟩
  · exact fun other apart held => absurd held (free other fun same => apart (congrArg some same))
  · exact fun call member => ⟨thread, old, rfl, running, own call member⟩
  · exact fun _ => Or.inr (batches ▸ List.Subset.refl _)
  · exact fun _ _ member => Or.inr (ready ▸ member)
  · intro place next acts reached
    obtain ⟨rfl, rfl⟩ := found place next acts reached
    exact ⟨node, current⟩
  · exact fun _ _ member => Or.inl (flushed ▸ member)

end Flushes

section Steps

variable {setup : Setup} {floats : FloatFormat} {state : State} {thread : Thread} {flush : Flush}
  {ids members : List Nat} {batch index request : Nat} {node : NodeRef}

theorem fit_nil : Fit state [] := ⟨nofun, 0, nofun⟩

theorem sound_start : Sound {} := by
  constructor
  · exact fun _ => fit_nil
  · exact nofun
  · exact fun _ _ running => nomatch running
  · exact fun _ _ _ _ running => nomatch running
  · exact nofun
  · exact nodup_nil
  · exact nofun

variable {batches : BatchKey → List Nat} {ready : Thread → List (List Nat)}

theorem mem_update_ready {place : Thread}
    {groups : List (List Nat)} (member : ids ∈ update ready thread groups place) :
    ids ∈ groups ∨ ids ∈ ready place := by
  rcases eq_or_ne place thread with rfl | other
  · rw [update_self] at member
    exact .inl member
  · rw [update_of_ne other] at member
    exact .inr member

theorem fit_place {entry : Entry} (known : ∀ id ∈ ids, id < state.nextRequest)
    (agreed : Agreed state entry.node ids) : Fit (state.place entry) (ids ++ [state.nextRequest]) := by
  refine ⟨?_, entry.node, ?_⟩
  · intro id member
    rcases mem_append.mp member with old | new
    · exact Nat.lt_succ_of_lt (known id old)
    · exact Nat.lt_succ_of_le (mem_singleton.mp new).le
  · intro id member other found
    rcases mem_append.mp member with old | new
    · have before := (update_of_ne (known id old).ne _ _).symm.trans found
      exact agreed id old other before
    · rw [mem_singleton.mp new] at found
      cases (update_self _ _ _).symm.trans found
      rfl

theorem sound_place (sound : Sound state) {entry : Entry}
    (parked : ∀ key, Fit (state.place entry) (batches key) ∨ batches key ⊆ state.batches key)
    (taken : ∀ thread, ∀ ids ∈ ready thread, Fit (state.place entry) ids ∨ ids ∈ state.ready thread) :
    Sound { state.place entry with batches := batches, ready := ready } := by
  refine sound.quiet ⟨⟨Nat.le_succ _, ?_⟩, rfl, rfl, rfl, rfl, rfl⟩ ?_ ?_
  · exact fun id known _ found => (update_of_ne known.ne _ _).symm.trans found
  · exact fun key => (parked key).imp_left fun fit => ⟨fit.known, fit.agreed⟩
  · exact fun thread ids member => (taken thread ids member).imp_left fun fit =>
      ⟨fit.known, fit.agreed⟩

theorem update_either {key : BatchKey} (place : BatchKey) : update batches key ids place = ids ∨
      update batches key ids place = batches place := by
  rcases eq_or_ne place key with rfl | other
  · exact .inl (update_self _ _ _)
  · exact .inr (update_of_ne other _ _)

variable (sound : Sound state)
include sound

theorem sound_submit {args : SubmitArgs}
    (steady : Steady setup floats state (.submit thread args)) :
    Sound (state.submit setup floats thread args) := by
  let key := setup.key floats args
  have alone : Fit (state.place ⟨args.node, args.session⟩) ([] ++ [state.nextRequest]) :=
    fit_place nofun
      nofun
  have together (parks : state.parks setup args = true) :
      Fit (state.place ⟨args.node, args.session⟩) (state.batches key ++ [state.nextRequest]) :=
    fit_place (sound.parked _).known fun id member entry found => steady parks id member entry found
  have kept : ∀ place, state.batches place ⊆ state.batches place := fun _ => List.Subset.refl _
  unfold State.submit
  dsimp only
  split_ifs with parks full
  · refine sound_place sound ?_ ?_
    · intro place
      rcases update_either place with empty | same
      · exact .inr (empty ▸ nil_subset _)
      · exact .inr (same ▸ kept place)
    · intro place ids member
      refine (mem_update_ready member).imp_left fun new => ?_
      rw [mem_singleton.mp new]
      exact together parks
  · refine sound_place sound ?_ fun place ids member => Or.inr member
    intro place
    rcases update_either place with grown | same
    · exact .inl (grown ▸ together parks)
    · exact .inr (same ▸ kept place)
  · refine sound_place sound (fun place => Or.inr (kept place)) ?_
    intro place ids member
    refine (mem_update_ready member).imp_left fun new => ?_
    rw [mem_singleton.mp new]
    exact alone

theorem sound_flushDue (keys : List BatchKey) : Sound (state.flushDue thread keys) := by
  refine sound.quiet ⟨⟨le_rfl, fun _ _ _ found => found⟩, rfl, rfl, rfl, rfl, rfl⟩ ?_ ?_
  · refine fun key => Or.inr ?_
    change (if key ∈ keys then [] else state.batches key) ⊆ state.batches key
    split_ifs
    · exact nil_subset _
    · exact List.Subset.refl _
  · intro place ids member
    refine (mem_update_ready member).imp_left fun new => ?_
    obtain ⟨key, _, rfl⟩ := mem_map.mp new
    exact (sound.parked key).aged ⟨le_rfl, fun _ _ _ found => found⟩

theorem sound_fewer {sessions : Nat → Option Bool}
    {inFlight : Nat → Option Entry} (parked : ∀ key, batches key ⊆ state.batches key)
    (entries : ∀ id entry, inFlight id = some entry → state.inFlight id = some entry) :
    Sound { state with sessions := sessions, batches := batches, inFlight := inFlight } :=
  sound.quiet ⟨⟨le_rfl, fun id _ entry found => entries id entry found⟩, rfl, rfl, rfl, rfl, rfl⟩
    (fun key => Or.inr (parked key)) fun _ _ member => Or.inr member

theorem sound_retire (request : Nat) :
    Sound { state with inFlight := update state.inFlight request none } := by
  refine sound_fewer sound (fun _ => List.Subset.refl _) ?_
  intro id entry found
  rcases eq_or_ne id request with rfl | other
  · cases (update_self _ _ _).symm.trans found
  · exact (update_of_ne other _ _).symm.trans found

theorem sound_begin {rest : List (List Nat)} (taken : state.ready thread = members :: rest)
    (idle : state.flush thread = none) : Sound (state.begin thread members rest) := by
  have still : ∀ place, ∀ ids ∈ update state.ready thread rest place, ids ∈ state.ready place := by
    intro place ids member
    rcases eq_or_ne place thread with rfl | other
    · rw [update_self] at member
      exact taken ▸ mem_cons_of_mem _ member
    · rwa [update_of_ne other] at member
  have fit := sound.ready thread members (taken ▸ mem_cons_self)
  obtain ⟨node, agreed⟩ := fit.agreed
  have kept : ∀ key, state.batches key ⊆ state.batches key := fun _ => List.Subset.refl _
  unfold State.begin
  split_ifs with empty
  · exact sound.quiet ⟨⟨le_rfl, fun _ _ _ found => found⟩, rfl, rfl, rfl, rfl, rfl⟩
      (fun key => Or.inr (kept key)) fun place ids member => Or.inr (still place ids member)
  refine @Sound.passed state _ (some thread) [] sound ⟨⟨le_rfl, fun _ _ _ found => found⟩, ?_, ?_,
    Nat.le_succ _, (append_nil _).symm, fun _ _ held => ⟨held, rfl⟩, nofun⟩
    (fun key => Or.inr (kept key)) (fun place ids member => Or.inr (still place ids member)) ?_
    (fun _ _ member => Or.inl member) sound.numbers
  · exact fun place apart => update_of_ne (fun same => apart (congrArg some same)) _ _
  · rintro _ next ⟨⟩ found
    cases (update_self _ _ _).symm.trans found
    exact .inr rfl
  · rintro _ next ⟨⟩ found
    cases (update_self _ _ _).symm.trans found
    exact ⟨node, Nat.lt_succ_self _, fit.known, agreed, Nat.zero_le _,
      fun busy => absurd rfl busy, fun _ => rfl, nofun, state.calls, [],
      (append_nil _).symm, frame_nil, fun call member => (sound.recent call member).ne⟩

theorem sound_lock (running : state.flush thread = some ⟨batch, members, index, .waiting⟩)
    (free : state.submitMutex = none) :
    Sound { state.setFlush thread ⟨batch, members, index, .looking⟩ with
      submitMutex := some thread } := by
  obtain ⟨node, current⟩ := sound.current thread _ running
  refine sound.moved running ?_ rfl (append_nil _).symm rfl
    nofun ⟨rfl, rfl, rfl, rfl, rfl, rfl⟩
    { current with holds := fun _ => rfl, fresh := nofun, called := nofun }
  intro other _ held
  cases free.symm.trans held

omit sound

theorem Current.alone (current : Current state thread node flush) (busy : flush.stage ≠ .waiting)
    (other : Thread) (apart : other ≠ thread) : state.submitMutex ≠ some other := by
  rw [current.holds busy]
  exact fun same => apart (some.inj same).symm

theorem sound_look (sound : Sound state)
    (running : state.flush thread = some ⟨batch, members, index, .looking⟩)
    (next : members[index]? = some request) (steady : Steady setup floats state (.look thread)) :
    Sound (state.look thread ⟨batch, members, index, .looking⟩ request) := by
  obtain ⟨node, current⟩ := sound.current thread _ running
  obtain ⟨entry, found⟩ := isSome_iff_exists.mp (steady _ running request next)
  have own := current.agreed request (mem_of_getElem? next) entry found
  unfold State.look
  rw [found]
  refine sound.moved running (current.alone (by simp)) rfl (append_nil _).symm rfl
    nofun ⟨rfl, rfl, rfl, rfl, rfl, rfl⟩
    { current with holds := fun _ => current.holds (by simp), fresh := nofun, called := ?_ }
  rintro _ _ ⟨⟩
  exact ⟨next, own⟩

theorem sound_call (sound : Sound state)
    (running : state.flush thread = some ⟨batch, members, index, .calling request node⟩)
    (steady : Steady setup floats state (.call thread)) :
    Sound (state.call thread ⟨batch, members, index, .calling request node⟩ request node) := by
  obtain ⟨_, current⟩ := sound.current thread _ running
  obtain ⟨next, rfl⟩ := current.called request node rfl
  obtain ⟨earlier, frame, split, shape, apart⟩ := current.framed
  unfold State.call
  rw [steady _ running node rfl]
  refine sound.moved running (current.alone (by simp)) rfl rfl rfl ?_
    ⟨rfl, rfl, rfl, rfl, rfl, rfl⟩ ⟨current.numbered, current.known, current.agreed,
      (List.getElem?_eq_some_iff.mp next).1, fun _ => current.holds (by simp), nofun, nofun,
      earlier, _, ?_, frame_snoc shape next, apart⟩
  · intro call member
    rw [mem_singleton.mp member]
  · exact (congrArg (· ++ _) split).trans (append_assoc _ _ _)

theorem Current.complete (current : Current state thread node flush)
    (done : flush.members.length ≤ flush.index) : Framed state.calls flush.batch flush.members := by
  obtain ⟨earlier, frame, split, shape, apart⟩ := current.framed
  rw [current.within.antisymm done] at shape
  refine ⟨thread, node, earlier, frame, [], ?_, shape, apart, ?_⟩
  · rw [append_nil, split]
  · exact nofun

theorem sound_unlock (sound : Sound state) (running : state.flush thread = some flush)
    (busy : flush.stage ≠ .waiting) (done : flush.members.length ≤ flush.index) :
    Sound (state.unlock thread flush) := by
  obtain ⟨node, current⟩ := sound.current thread flush running
  have gone : (state.unlock thread flush).flush thread = none := update_self _ _ _
  have others : ∀ place, some place ≠ some thread →
      (state.unlock thread flush).flush place = state.flush place :=
    fun place apart => update_of_ne (fun same => apart (congrArg some same)) _ _
  refine @Sound.passed state _ (some thread) [] sound ⟨⟨le_rfl, fun _ _ _ found => found⟩, others,
    ?_, le_rfl, (append_nil _).symm, ?_, nofun⟩ (fun _ => Or.inr (List.Subset.refl _))
    (fun _ _ member => Or.inr member) ?_ ?_ ?_
  · rintro _ _ ⟨⟩ found
    cases gone.symm.trans found
  · intro other apart held
    exact absurd held (current.alone busy other fun same => apart (congrArg some same))
  · rintro _ _ ⟨⟩ found
    cases gone.symm.trans found
  · intro batch members member
    refine (mem_append.mp member).imp_right fun new => ?_
    cases mem_singleton.mp new
    refine ⟨current.numbered, current.complete done, ?_⟩
    intro place other found clash
    by_cases same : some place = some thread
    · cases same
      cases gone.symm.trans found
    · rw [others place same] at found
      exact same (congrArg some (sound.distinct place thread other flush found running clash))
  · change ((state.flushed ++ [(flush.batch, flush.members)]).map Prod.fst).Nodup
    rw [map_append]
    refine nodup_append'.mpr ⟨sound.numbers, nodup_singleton _, ?_⟩
    intro batch old new
    obtain ⟨⟨_, members⟩, member, rfl⟩ := mem_map.mp old
    exact (sound.past _ members member).2.2 thread flush running (mem_singleton.mp new).symm

theorem sound_act (sound : Sound state) {action : Action} (steady : Steady setup floats state action)
    {after : State} (done : act setup floats state action = some after) : Sound after := by
  cases action with
  | attach session batching =>
    cases done
    exact sound_fewer sound (fun _ => List.Subset.refl _) fun _ _ found => found
  | submit thread args =>
    obtain ⟨_, same⟩ := ite_none_right_eq_some.mp done
    cases same
    exact sound_submit sound steady
  | flushDue thread keys =>
    obtain ⟨_, same⟩ := ite_none_right_eq_some.mp done
    cases same
    exact sound_flushDue sound keys
  | cancel node =>
    cases done
    exact sound.quiet ⟨⟨le_rfl, fun _ _ _ found => found⟩, rfl, rfl, rfl, rfl, rfl⟩
      (fun _ => Or.inr (List.Subset.refl _)) fun _ _ member => Or.inr member
  | retire request =>
    cases done
    exact sound_retire sound request
  | detach session =>
    obtain ⟨_, same⟩ := ite_none_right_eq_some.mp done
    cases same
    exact sound_fewer sound (fun _ => filter_sublist.subset)
      fun _ _ found => (filter_eq_some_iff.mp found).1
  | begin thread =>
    rw [act] at done
    split at done
    case h_1 members rest taken idle =>
      cases done
      exact sound_begin sound taken idle
    case h_2 => cases done
  | lock thread =>
    rw [act] at done
    split at done
    case h_1 batch members index running free =>
      cases done
      exact sound_lock sound running free
    case h_2 => cases done
  | look thread =>
    rw [act] at done
    split at done
    case h_1 batch members index running =>
      obtain ⟨request, next, same⟩ := map_eq_some_iff.mp done
      cases same
      exact sound_look sound running next steady
    case h_2 => cases done
  | call thread =>
    rw [act] at done
    split at done
    case h_1 batch members index request node running =>
      cases done
      exact sound_call sound running steady
    case h_2 => cases done
  | unlock thread =>
    rw [act] at done
    split at done
    case h_1 batch members index running =>
      obtain ⟨finished, same⟩ := ite_none_right_eq_some.mp done
      cases same
      exact sound_unlock sound running (by simp) finished
    case h_2 => cases done

theorem reachable_sound (reached : Reachable Start (SteadyStep setup floats) state) :
    Sound state := by
  refine reachable_invariant Sound ?_ ?_ reached
  · rintro _ rfl
    exact sound_start
  · rintro before after _ sound ⟨action, steady, done⟩
    exact sound_act sound steady done

end Steps

/-- In every run in which batches are of one node and their members last until they are called,
every flushed batch is framed. -/
theorem flushed_batches_framed (setup : Setup) (floats : FloatFormat) {state : State}
    (reached : Reachable Start (SteadyStep setup floats) state) : WellFramed state := by
  have sound := reachable_sound reached
  exact ⟨fun batch members member => (sound.past batch members member).2.1, sound.numbers⟩

instance (setup : Setup) (floats : FloatFormat) (state : State) (action : Action) :
    Decidable (Steady setup floats state action) := by
  cases action <;> unfold Steady <;> infer_instance

def twins : Setup where
  maxBatch := 2
  nodes := fun _ => { operatorKey := ⟨"infer.stub", "1.0.0"⟩ }

def pairRun (first second : NodeRef) : List Action :=
  [.attach 1 true, .submit 0 { node := first, session := 1 },
    .submit 0 { node := second, session := 1 },
    .begin 0, .lock 0, .look 0, .call 0, .look 0, .call 0, .unlock 0]

theorem one_node_framed : ∃ state, Reachable Start (SteadyStep twins noFloats) state ∧
      state.flushed = [(1, [1, 2])] ∧ WellFramed state := by
  have seen : (play (act twins noFloats) (Steady twins noFloats) {} (pairRun 1 1)).map
      State.flushed = some [(1, [1, 2])] := by decide +kernel
  obtain ⟨state, reached, flushed⟩ := reachable_seen seen
  exact ⟨state, reached, flushed, flushed_batches_framed twins noFloats reached⟩

/-- The key of a batch does not name the node: the two members of a batch go to two operator
instances, and each of them waits for the index the other got. -/
theorem batch_split_over_nodes :
    ∃ state, Reachable Start (Step twins noFloats) state ∧ ¬WellFramed state := by
  have seen : ((pairRun 1 2).foldlM (act twins noFloats) {}).map
      (fun state => (state.flushed, state.calls)) =
        some ([(1, [1, 2])], [⟨0, 1, 1, 1, 0, 2⟩, ⟨0, 2, 2, 1, 1, 2⟩]) := by decide +kernel
  obtain ⟨state, played, history⟩ := map_eq_some_iff.mp seen
  obtain ⟨flushed, calls⟩ := Prod.mk.inj history
  refine ⟨state, reachable_played (fun _ action _ done => ⟨action, done⟩) (.initial rfl) played, ?_⟩
  intro well
  obtain ⟨thread, node, earlier, frame, later, split, shape, early, late⟩ :=
    well.framed 1 [1, 2] (by rw [flushed]; exact mem_singleton_self _)
  rw [calls] at split
  -- Both calls carry the number of the batch, so both are of its frame.
  have inside : ∀ call ∈ ([⟨0, 1, 1, 1, 0, 2⟩, ⟨0, 2, 2, 1, 1, 2⟩] : List SubmitCall),
      call ∈ frame := by
    intro call member
    have numbered : call.batch = 1 := by
      revert call
      decide
    rw [split] at member
    rcases mem_append.mp member with front | back
    · rcases mem_append.mp front with before | within
      · exact absurd numbered (early call before)
      · exact within
    · exact absurd numbered (late call back)
  have first := (shape.same ⟨0, 1, 1, 1, 0, 2⟩ (inside _ (by simp))).2.1
  have second := (shape.same ⟨0, 2, 2, 1, 1, 2⟩ (inside _ (by simp))).2.1
  exact absurd (first.trans second.symm) (by decide)

end GraphEngine.BatchFraming
