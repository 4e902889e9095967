import GraphEngine.NodeRuntimes
import GraphEngine.Runs

/-!
The worker thread of the asynchronous runtime (async_runtime.cpp) and the threads that submit to
it: when the worker sleeps, until when, and who wakes it. With a worker thread the engine lets no
other thread run `Pump`. Times are in nanoseconds of the steady clock, read once a step. Edges,
operators and sessions appear by whether a blocked output goes through and a result finds room.
`DeliverReady` may take any head that is ready, not only that of the least key. The submit mutex
only orders calls of operators and is left out.
-/

namespace GraphEngine.WorkerSleep

open NodeRuntimes Runs Function List Option

abbrev Time := Nat
abbrev ReorderKey := NodeRef × Nat

def millisecond : Time := 1000000

inductive Thread where
  | worker
  | host (number : Nat)
  deriving DecidableEq

section Machine

/-- The options of the runtime and of the nodes, with the engine's defaults filled in. -/
structure Setup where
  batching : Nat → NodeRef → Bool := fun _ _ => false
  maxBatch : NodeRef → Nat := fun _ => 8
  batchTimeout : NodeRef → Time := fun _ => 0
  inferenceTimeout : NodeRef → Time := fun _ => 0

structure Entry where
  id : Nat
  session : Nat
  key : ReorderKey
  submitted : Bool := false
  deadline : Time
  done : Bool := false
  deriving DecidableEq

structure Pending where
  batch : Nat
  id : Nat
  due : Time
  deriving DecidableEq

/-- Nothing in the source says since when an output is blocked; it is kept as history. -/
structure BlockedOutput where
  key : ReorderKey
  session : Nat
  since : Time
  deriving DecidableEq

/-- Where a run of `Pump` stands. -/
inductive Stage where
  | flushDue
  | flushing
  | retry
  | drain
  /-- `OnCompletion` for the events that were drained. -/
  | events (left : List Nat)
  /-- `DeliverReady`, called for an event with others left, or at the end. -/
  | deliver (left : Option (List Nat))
  | expire
  deriving DecidableEq

inductive Worker where
  | free
  /-- `NextWake` was computed at a time, and `wake_mutex_` is held. -/
  | bounded (bound : Option Time) (look : Time)
  | asleep (bound : Option Time) (look : Time)
  | pumping (stage : Stage)
  deriving DecidableEq

/-- `owed` counts the calls of `Wake` that are still to take `wake_mutex_`. An event in the queue
is the request it completes. -/
structure State where
  now : Time := 0
  nextRequest : Nat := 1
  inFlight : List Entry := []
  reorder : ReorderKey → List Nat := fun _ => []
  parked : List Pending := []
  blocked : List BlockedOutput := []
  queue : List Nat := []
  flushes : Thread → List Nat := fun _ => []
  worker : Worker := .free
  wakePending : Bool := false
  owed : Nat := 0

structure SubmitArgs where
  node : NodeRef
  topology : Nat
  session : Nat
  batch : Nat := 0

namespace State

def isHead (state : State) (entry : Entry) : Bool := (state.reorder entry.key).head? = some entry.id

/-- The heads that `NextWake` and `ExpireDeadlines` look at. -/
def openHeads (state : State) : List Entry :=
  state.inFlight.filter fun entry => state.isHead entry && entry.submitted && !entry.done

def nextWake (state : State) : Option Time :=
  (state.parked.map Pending.due ++ state.openHeads.map Entry.deadline ++
    if state.blocked = [] then [] else [state.now + millisecond]).min?

/-- The locked section of `Submit`. A batch that fills up is flushed by its thread, a request
that parks calls for a wake-up. -/
def submit (setup : Setup) (state : State) (thread : Thread) (args : SubmitArgs) : State :=
  let id := state.nextRequest
  let key := (args.node, args.topology)
  let entry : Entry :=
    { id := id, session := args.session, key := key,
      deadline := state.now + setup.inferenceTimeout args.node }
  let placed := { state with
    nextRequest := id + 1
    inFlight := state.inFlight ++ [entry]
    reorder := update state.reorder key (state.reorder key ++ [id]) }
  if setup.batching args.session args.node && 1 < setup.maxBatch args.node then
    let members := state.parked.filter fun pending => pending.batch = args.batch
    if setup.maxBatch args.node ≤ members.length + 1 then
      { placed with
        parked := state.parked.filter fun pending => pending.batch ≠ args.batch
        flushes := update state.flushes thread (members.map Pending.id ++ [id]) }
    else
      let pending : Pending := ⟨args.batch, id, state.now + setup.batchTimeout args.node⟩
      { placed with parked := state.parked ++ [pending], owed := state.owed + 1 }
  else { placed with flushes := update state.flushes thread [id] }

/-- The locked section of `FlushBatch` for one member. -/
def markSubmitted (setup : Setup) (state : State) (id : Nat) : State :=
  { state with inFlight := state.inFlight.map fun entry =>
      if entry.id = id then
        { entry with
          submitted := true, deadline := state.now + setup.inferenceTimeout entry.key.1 }
      else entry }

def takeDue (state : State) : State :=
  let due := (state.parked.filter fun pending => pending.due ≤ state.now).map Pending.batch
  { state with
    parked := state.parked.filter fun pending => pending.batch ∉ due
    flushes := update state.flushes .worker
      ((state.parked.filter fun pending => pending.batch ∈ due).map Pending.id)
    worker := .pumping .flushing }

/-- `OnCompletion` for an event that matches its request. -/
def complete (state : State) (id : Nat) : State :=
  { state with inFlight := state.inFlight.map fun entry =>
      if entry.id = id then { entry with done := true } else entry }

def expireDeadlines (state : State) : State :=
  { state with inFlight := state.inFlight.map fun entry =>
      if entry ∈ state.openHeads ∧ entry.deadline ≤ state.now then { entry with done := true }
      else entry }

def skipDropped (state : State) : State :=
  { state with reorder := fun key => (state.reorder key).dropWhile fun id =>
      !state.inFlight.any fun entry => entry.id = id }

def readyHeads (state : State) : List Entry :=
  state.inFlight.filter fun entry => state.isHead entry && entry.done &&
    !state.blocked.any fun output => output.key = entry.key

/-- A head is taken out and delivered; its output may find no room. -/
def deliver (state : State) (entry : Entry) (blocks : Bool) : State :=
  { state with
    inFlight := state.inFlight.filter fun other => other.id ≠ entry.id
    reorder := update state.reorder entry.key (state.reorder entry.key).tail
    blocked := if blocks then state.blocked ++ [⟨entry.key, entry.session, state.now⟩]
      else state.blocked }

/-- The locked section of `DetachSession`. -/
def detach (state : State) (session : Nat) : State :=
  let kept := state.inFlight.filter fun entry => entry.session ≠ session
  { state with
    parked := state.parked.filter fun pending =>
      !state.inFlight.any fun entry => entry.id = pending.id && entry.session = session
    inFlight := kept
    reorder := fun key =>
      if (state.reorder key).any fun id => kept.any fun entry => entry.id = id then
        state.reorder key
      else []
    blocked := state.blocked.filter fun output => output.session ≠ session }

end State

inductive Action where
  | tick (time : Time)
  | submit (number : Nat) (args : SubmitArgs)
  | flush (thread : Thread)
  /-- A backend or a failed submit puts an event into the queue. -/
  | push (request : Nat)
  | wake
  | detach (session : Nat)
  | bound
  | settle
  | rouse
  | takeDue
  | flushed
  | retry (still : List ReorderKey)
  | drain
  | drained
  | event (matched : Bool)
  | deliver (entry : Entry) (blocks : Bool)
  | delivered
  | expire

variable (setup : Setup)

/-- The worker leaves its wait: the predicate of the wait holds, or the time is over. -/
def State.rise (state : State) : State :=
  { state with wakePending := false, worker := .pumping .flushDue }

def act (state : State) : Action → Option State
  | .tick time => some { state with now := state.now + time }
  | .submit number args =>
    if state.flushes (.host number) = [] then some (state.submit setup (.host number) args)
    else none
  | .flush thread =>
    match state.flushes thread with
    | id :: rest =>
      some { state.markSubmitted setup id with
        flushes := update state.flushes thread rest }
    | [] => none
  | .push request => some { state with queue := state.queue ++ [request], owed := state.owed + 1 }
  | .wake =>
    match state.owed, state.worker with
    | 0, _ => none
    -- The worker holds the mutex.
    | _, .bounded _ _ => none
    | owed + 1, _ => some { state with owed := owed, wakePending := true }
  | .detach session => some (state.detach session)
  | .bound =>
    if state.worker = .free then some { state with worker := .bounded state.nextWake state.now }
    else none
  | .settle =>
    match state.worker with
    | .bounded bound look =>
      some (if state.wakePending then state.rise else { state with worker := .asleep bound look })
    | _ => none
  | .rouse =>
    match state.worker with
    | .asleep bound _ =>
      if state.wakePending ∨ bound.any (· ≤ state.now) then some state.rise else none
    | _ => none
  | .takeDue => if state.worker = .pumping .flushDue then some state.takeDue else none
  | .flushed =>
    if state.worker = .pumping .flushing ∧ state.flushes .worker = [] then
      some { state with worker := .pumping .retry }
    else none
  | .retry still =>
    if state.worker = .pumping .retry then
      some { state with
        blocked := state.blocked.filter fun output => output.key ∈ still
        worker := .pumping .drain }
    else none
  | .drain =>
    if state.worker = .pumping .drain then
      some { state with worker := .pumping (.events state.queue), queue := [] }
    else none
  | .drained =>
    if state.worker = .pumping (.events []) then some { state with worker := .pumping .expire }
    else none
  | .event matched =>
    match state.worker with
    | .pumping (.events (id :: rest)) =>
      let seen := if matched then state.complete id else state
      some { seen with worker := .pumping (.deliver (some rest)) }
    | _ => none
  | .deliver entry blocks =>
    match state.worker with
    | .pumping (.deliver _) =>
      if entry ∈ state.skipDropped.readyHeads then
        some (state.skipDropped.deliver entry blocks)
      else none
    | _ => none
  | .delivered =>
    match state.worker with
    | .pumping (.deliver events) =>
      if state.skipDropped.readyHeads = [] then
        some { state.skipDropped with
          worker := match events with
            | some rest => .pumping (.events rest)
            | none => .free }
      else none
    | _ => none
  | .expire =>
    if state.worker = .pumping .expire then
      some { state.expireDeadlines with worker := .pumping (.deliver none) }
    else none

def Step (before after : State) : Prop := ∃ action, act setup before action = some after

end Machine

section Property

/-- The times at which something is to be done. A blocked output is due a millisecond after it
was blocked and the worker looked. -/
inductive Due (state : State) (look : Time) : Time → Prop where
  | parked (pending : Pending) (waits : pending ∈ state.parked) : Due state look pending.due
  | head (entry : Entry) (first : entry ∈ state.openHeads) : Due state look entry.deadline
  | blocked (output : BlockedOutput) (waits : output ∈ state.blocked) :
      Due state look (max output.since look + millisecond)

/-- The worker sleeps past a time at which something is due, and nobody is about to wake it. -/
def Overslept (state : State) : Prop :=
  ∃ bound look, state.worker = .asleep bound look ∧ state.wakePending = false ∧ state.owed = 0 ∧
    ∃ due, Due state look due ∧ ∀ time ∈ bound, due < time

/-- The time the worker sleeps or will sleep until. -/
def Worker.bound : Worker → Option (Option Time)
  | .bounded bound _ => some bound
  | .asleep bound _ => some bound
  | _ => none

variable (setup : Setup)

/-- When a request is marked as submitted, the worker is awake, or a wake-up is under way, or the
worker sleeps no longer than until the deadline of the request. -/
def Heard (before : State) : Action → Prop
  | .flush thread => ∀ bound ∈ before.worker.bound,
      before.wakePending = true ∨ 0 < before.owed ∨
        ∀ entry ∈ before.inFlight, some entry.id = (before.flushes thread).head? →
          ∃ time ∈ bound, time ≤ before.now + setup.inferenceTimeout entry.key.1
  | _ => True

def HeardStep (before after : State) : Prop :=
  ∃ action, Heard setup before action ∧ act setup before action = some after

end Property

section Dues

def Covered (state : State) (bound : Option Time) (look : Time) : Prop :=
  ∀ due, Due state look due → ∃ time ∈ bound, time ≤ due

theorem exists_min_le {times : List Time} {time : Time} (member : time ∈ times) :
    ∃ least ∈ times.min?, least ≤ time := by
  obtain ⟨least, found⟩ := isSome_iff_exists.mp (isSome_min?_of_mem member)
  exact ⟨least, found, (min?_eq_some_iff.mp found).2 time member⟩

theorem covered_nextWake (state : State) : Covered state state.nextWake state.now := by
  intro due listed
  unfold State.nextWake
  cases listed with
  | parked pending waits =>
    exact exists_min_le (mem_append_left _ (mem_append_left _
      (mem_map_of_mem waits)))
  | head entry first =>
    exact exists_min_le (mem_append_left _ (mem_append_right _
      (mem_map_of_mem first)))
  | blocked output waits =>
    rw [if_neg (ne_nil_of_mem waits)]
    obtain ⟨least, found, early⟩ := exists_min_le (mem_append_right
      (state.parked.map Pending.due ++ state.openHeads.map Entry.deadline)
      (mem_singleton_self (state.now + millisecond)))
    exact ⟨least, found, early.trans (Nat.add_le_add_right (le_max_right _ _) _)⟩

variable {before after : State}

theorem Due.fewer {look due : Time} (listed : Due after look due)
    (parked : after.parked ⊆ before.parked) (heads : after.openHeads ⊆ before.openHeads)
    (blocked : after.blocked ⊆ before.blocked) : Due before look due := by
  cases listed with
  | parked pending waits => exact .parked pending (parked waits)
  | head entry first => exact .head entry (heads first)
  | blocked output waits => exact .blocked output (blocked waits)

theorem mem_openHeads {state : State} {entry : Entry} : entry ∈ state.openHeads ↔
    entry ∈ state.inFlight ∧ (state.reorder entry.key).head? = some entry.id ∧
      entry.submitted = true ∧ entry.done = false := by
  simp [State.openHeads, State.isHead, and_assoc]

end Dues

section Steps

variable {setup : Setup} {state before after : State}

/-- While the worker sleeps or is about to, it will be woken, or it sleeps until the first time
at which something is due. -/
structure Watched (state : State) : Prop where
  known : ∀ entry ∈ state.inFlight, entry.id < state.nextRequest
  covered : ∀ bound look, state.worker = .bounded bound look ∨ state.worker = .asleep bound look →
    state.wakePending = true ∨ 0 < state.owed ∨ Covered state bound look

theorem watched_start : Watched {} :=
  ⟨nofun, fun _ _ sleeps => by simp at sleeps⟩

theorem watched_awake (known : ∀ entry ∈ state.inFlight, entry.id < state.nextRequest)
    (awake : state.worker.bound = none) : Watched state := by
  refine ⟨known, ?_⟩
  rintro bound look (sleeps | sleeps) <;>
  · rw [sleeps] at awake
    cases awake

theorem Watched.calm (watched : Watched before)
    (known : ∀ entry ∈ after.inFlight, entry.id < after.nextRequest)
    (worker : after.worker = before.worker) (pending : after.wakePending = before.wakePending)
    (owed : after.owed = before.owed) (parked : after.parked ⊆ before.parked)
    (heads : after.openHeads ⊆ before.openHeads) (blocked : after.blocked ⊆ before.blocked) :
    Watched after := by
  refine ⟨known, ?_⟩
  intro bound look sleeps
  rw [worker] at sleeps
  rw [pending, owed]
  rcases watched.covered bound look sleeps with woken | promised | covered
  · exact .inl woken
  · exact .inr (.inl promised)
  · exact .inr (.inr fun due listed => covered due (listed.fewer parked heads blocked))

section Known

variable (known : ∀ entry ∈ state.inFlight, entry.id < state.nextRequest)
include known

theorem watched_promised (alarm : state.wakePending = true ∨ 0 < state.owed) : Watched state :=
  ⟨known, fun _ _ _ => alarm.imp_right Or.inl⟩

/-- A new request is not due: it is not submitted yet. -/
theorem openHeads_place
    {entry : Entry} (new : entry.id = state.nextRequest) (unsent : entry.submitted = false)
    (inFlight : after.inFlight = state.inFlight ++ [entry])
    (reorder : after.reorder = update state.reorder entry.key
      (state.reorder entry.key ++ [entry.id])) : after.openHeads ⊆ state.openHeads := by
  intro other member
  obtain ⟨present, first, submitted, undone⟩ := mem_openHeads.mp member
  rw [inFlight] at present
  rw [reorder] at first
  rcases mem_append.mp present with old | isNew
  · refine mem_openHeads.mpr ⟨old, ?_, submitted, undone⟩
    rcases eq_or_ne other.key entry.key with same | apart
    · rw [same, update_self, head?_append] at first
      rw [same]
      cases head : (state.reorder entry.key).head? with
      | some id => simpa [head] using first
      | none =>
        -- The queue was empty, and its only member is the new request.
        rw [head] at first
        have clash : entry.id = other.id := by simpa using first
        exact absurd (clash.symm.trans new) (known other old).ne
    · rwa [update_of_ne apart] at first
  · rw [mem_singleton.mp isNew, unsent] at submitted
    cases submitted

theorem known_place {entry : Entry} (new : entry.id = state.nextRequest) :
    ∀ other ∈ state.inFlight ++ [entry], other.id < state.nextRequest + 1 := by
  intro other member
  rcases mem_append.mp member with old | isNew
  · exact Nat.lt_succ_of_lt (known other old)
  · rw [mem_singleton.mp isNew, new]
    exact Nat.lt_succ_self _

theorem known_map {change : Entry → Entry} (same : ∀ entry, (change entry).id = entry.id) :
    ∀ entry ∈ state.inFlight.map change, entry.id < state.nextRequest := by
  intro entry member
  obtain ⟨old, present, rfl⟩ := mem_map.mp member
  rw [same]
  exact known old present

theorem known_filter (keep : Entry → Bool) :
    ∀ entry ∈ state.inFlight.filter keep, entry.id < state.nextRequest :=
  fun entry member => known entry (mem_of_mem_filter member)

end Known

variable (watched : Watched state)
include watched

theorem watched_submit (thread : Thread) (args : SubmitArgs) :
    Watched (state.submit setup thread args) := by
  unfold State.submit
  dsimp only
  split_ifs
  · refine watched.calm (known_place watched.known rfl) rfl rfl rfl filter_sublist.subset ?_
      (List.Subset.refl _)
    exact openHeads_place watched.known rfl rfl rfl rfl
  · exact watched_promised (known_place watched.known rfl) (.inr (Nat.succ_pos _))
  · refine watched.calm (known_place watched.known rfl) rfl rfl rfl (List.Subset.refl _) ?_
      (List.Subset.refl _)
    exact openHeads_place watched.known rfl rfl rfl rfl

theorem watched_flush {thread : Thread} {id : Nat} {rest : List Nat}
    (next : state.flushes thread = id :: rest) (heard : Heard setup state (.flush thread)) :
    Watched { state.markSubmitted setup id with
      flushes := update state.flushes thread rest } := by
  have known : ∀ entry ∈ (state.markSubmitted setup id).inFlight, entry.id < state.nextRequest :=
    known_map watched.known fun entry => by split_ifs <;> rfl
  refine ⟨known, ?_⟩
  intro bound look sleeps
  have during : state.worker.bound = some bound := by
    rcases sleeps with held | sleeping
    · exact congrArg Worker.bound held
    · exact congrArg Worker.bound sleeping
  rcases heard bound during with woken | promised | early
  · exact .inl woken
  · exact .inr (.inl promised)
  · rcases watched.covered bound look sleeps with woken | promised | covered
    · exact .inl woken
    · exact .inr (.inl promised)
    · refine Or.inr (.inr ?_)
      intro due listed
      cases listed with
      | parked pending waits => exact covered _ (.parked pending waits)
      | blocked output waits => exact covered _ (.blocked output waits)
      | head entry first =>
        obtain ⟨present, leads, submitted, undone⟩ := mem_openHeads.mp first
        obtain ⟨old, was, same⟩ := mem_map.mp present
        split_ifs at same with marked
        · subst same
          exact early old was (by rw [next, marked]; rfl)
        · subst same
          exact covered _ (.head old (mem_openHeads.mpr ⟨was, leads, submitted, undone⟩))

theorem watched_detach (session : Nat) : Watched (state.detach session) := by
  refine watched.calm (known_filter watched.known _) rfl rfl rfl filter_sublist.subset ?_
    filter_sublist.subset
  intro entry first
  obtain ⟨present, leads, submitted, undone⟩ := mem_openHeads.mp first
  refine mem_openHeads.mpr ⟨mem_of_mem_filter present, ?_, submitted, undone⟩
  unfold State.detach at leads
  dsimp only at leads
  split_ifs at leads
  · exact leads
  · cases leads

theorem watched_act {action : Action} (heard : Heard setup state action)
    (done : act setup state action = some after) : Watched after := by
  cases action with
  | tick time =>
    cases done
    exact watched.calm watched.known rfl rfl rfl (List.Subset.refl _) (List.Subset.refl _)
      (List.Subset.refl _)
  | submit number args =>
    obtain ⟨_, same⟩ := ite_none_right_eq_some.mp done
    cases same
    exact watched_submit watched (.host number) args
  | flush thread =>
    rw [act] at done
    split at done
    case h_1 id rest next =>
      cases done
      exact watched_flush watched next heard
    case h_2 => cases done
  | push request =>
    cases done
    exact watched_promised watched.known (.inr (Nat.succ_pos _))
  | wake =>
    rw [act] at done
    split at done
    · cases done
    · cases done
    · cases done
      exact watched_promised watched.known (.inl rfl)
  | detach session =>
    cases done
    exact watched_detach watched session
  | bound =>
    obtain ⟨_, same⟩ := ite_none_right_eq_some.mp done
    cases same
    refine ⟨watched.known, ?_⟩
    rintro bound look (sleeps | sleeps)
    · cases sleeps
      refine Or.inr (.inr fun due listed => covered_nextWake state due ?_)
      exact listed.fewer (List.Subset.refl _) (List.Subset.refl _) (List.Subset.refl _)
    · cases sleeps
  | settle =>
    rw [act] at done
    split at done
    case h_1 bound look held =>
      cases done
      split_ifs with woken
      · exact watched_awake watched.known rfl
      refine ⟨watched.known, ?_⟩
      rintro bound look (sleeps | sleeps)
      · cases sleeps
      · cases sleeps
        refine (watched.covered bound look (.inl held)).imp_right (Or.imp_right ?_)
        exact fun covered due listed => covered due
          (listed.fewer (List.Subset.refl _) (List.Subset.refl _) (List.Subset.refl _))
    case h_2 => cases done
  | rouse =>
    rw [act] at done
    split at done
    · obtain ⟨_, same⟩ := ite_none_right_eq_some.mp done
      cases same
      exact watched_awake watched.known rfl
    · cases done
  | takeDue | flushed | retry still | drain | drained =>
    obtain ⟨_, same⟩ := ite_none_right_eq_some.mp done
    cases same
    exact watched_awake watched.known rfl
  | event matched =>
    rw [act] at done
    split at done
    · cases done
      refine watched_awake ?_ rfl
      cases matched
      · exact watched.known
      · exact known_map watched.known fun entry => by split_ifs <;> rfl
    · cases done
  | deliver entry blocks =>
    rw [act] at done
    split at done
    case h_1 left pumping =>
      obtain ⟨_, same⟩ := ite_none_right_eq_some.mp done
      cases same
      exact watched_awake (known_filter watched.known _) (congrArg Worker.bound pumping)
    case h_2 => cases done
  | delivered =>
    rw [act] at done
    split at done
    case h_1 left pumping =>
      obtain ⟨_, same⟩ := ite_none_right_eq_some.mp done
      cases same
      refine watched_awake watched.known ?_
      cases left <;> rfl
    case h_2 => cases done
  | expire =>
    obtain ⟨_, same⟩ := ite_none_right_eq_some.mp done
    cases same
    exact watched_awake (known_map watched.known fun entry => by split_ifs <;> rfl) rfl

end Steps

/-- In every run in which requests are marked as submitted only where the worker hears of it or
sleeps no longer than their deadline, the worker never oversleeps. -/
theorem never_overslept (setup : Setup) {state : State}
    (reached : Reachable (· = {}) (HeardStep setup) state) : ¬Overslept state := by
  have watched : Watched state := by
    refine reachable_invariant Watched ?_ ?_ reached
    · rintro _ rfl
      exact watched_start
    · rintro before after _ watched ⟨action, heard, done⟩
      exact watched_act watched heard done
  rintro ⟨bound, look, asleep, unwoken, unpromised, due, listed, late⟩
  rcases watched.covered bound look (.inr asleep) with woken | promised | covered
  · rw [unwoken] at woken
    cases woken
  · exact absurd unpromised promised.ne'
  · obtain ⟨time, sleeps, early⟩ := covered due listed
    exact absurd (late time sleeps) early.not_gt

instance (setup : Setup) (state : State) (action : Action) :
    Decidable (Heard setup state action) := by
  cases action <;> unfold Heard <;> infer_instance

def plain : Setup where
  inferenceTimeout := fun _ => 1000 * millisecond

def earlySubmit : List Action :=
  [.submit 1 { node := 1, topology := 1, session := 1 }, .flush (.host 1), .bound, .settle]

theorem early_submit_watched : ∃ state, Reachable (· = {}) (HeardStep plain) state ∧
      state.worker = .asleep (some (1000 * millisecond)) 0 ∧ ¬Overslept state := by
  have seen : (play (act plain) (Heard plain) {} earlySubmit).map State.worker =
      some (.asleep (some (1000 * millisecond)) 0) := by decide +kernel
  obtain ⟨state, reached, asleep⟩ := reachable_seen seen
  exact ⟨state, reached, asleep, never_overslept plain reached⟩

/-- The worker finds nothing to do and sleeps without a bound; then a request is submitted, and
its backend never answers. -/
def lateSubmit : List Action :=
  [.bound, .settle, .submit 1 { node := 1, topology := 1, session := 1 }, .flush (.host 1),
    .tick (2000 * millisecond)]

theorem late_submit_overslept :
    ∃ state, Reachable (· = {}) (Step plain) state ∧ Overslept state := by
  let entry : Entry := ⟨1, 1, (1, 1), true, 1000 * millisecond, false⟩
  have seen : (lateSubmit.foldlM (act plain) {}).map (fun state =>
      (state.worker, state.wakePending, state.owed, state.openHeads)) =
        some (.asleep none 0, false, 0, [entry]) := by decide +kernel
  obtain ⟨state, played, look⟩ := map_eq_some_iff.mp seen
  simp only [Prod.mk.injEq] at look
  obtain ⟨asleep, unwoken, unpromised, heads⟩ := look
  refine ⟨state, reachable_played (fun _ action _ done => ⟨action, done⟩) (.initial rfl) played,
    none, 0, asleep, unwoken, unpromised, _, .head entry ?_, nofun⟩
  rw [heads]
  exact mem_singleton_self _

end GraphEngine.WorkerSleep
