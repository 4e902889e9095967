import GraphEngine.AsyncRuns

/-!
What runs of the asynchronous runtime keep: every request is retired once and its node
counts it until then, an event is delivered only as the one answer to an open request it
agrees with, and the outputs of a node keep the order of submission while no two of its
open requests are of different topology versions.
-/

namespace GraphEngine.RequestRuns

open NodeRuntimes EdgeQueues Interleavings Ownership List
open AsyncRuntimes AsyncBooks DeliveryOrder AsyncRuns

variable {setup : Setup} {rules : Rules Runtime Op Arrival}

def unretired (runtime : Runtime) (n : NodeRef) : Int :=
  runtime.begun n - runtime.retired.countP fun request => request.node = n

/-- No request is retired twice or without being accepted, one that is retired is not in
flight, one in flight is in its queue, and every node counts its unretired ones. -/
structure RetiredOnce (runtime : Runtime) : Prop where
  once : (runtime.retired.map Request.id).Nodup
  accepted : ∀ request ∈ runtime.retired, request ∈ runtime.accepted
  gone : ∀ request ∈ runtime.retired, ∀ entry ∈ runtime.inFlight, entry.id ≠ request.id
  queued : ∀ entry ∈ runtime.inFlight, entry.id ∈ runtime.reorder entry.key
  pending : ∀ n, (runtime.nodes n).asyncPending = unretired runtime n
  noUnderflow : ∀ n, 0 ≤ (runtime.nodes n).asyncPending

/-- Nobody holds a request: each accepted one is in the table or retired. -/
structure AllAccounted (runtime : Runtime) : Prop where
  accepted : runtime.accepted.Perm (runtime.requests ++ runtime.retired)
  count : runtime.inFlightCount = runtime.inFlight.length
  pending : ∀ n, (runtime.nodes n).asyncPending =
    (runtime.accepted.filter fun request => request.node = n ∧ request ∉ runtime.retired).length

/-- An output that came with an event came with the only answer to its request: the event
named the request and agreed with it in session, versions and sequence number, the
request was neither done nor timed out, and the event was not turned away. An event for
a request that is not in flight, is done, or does not agree is turned away. -/
structure Genuine (runtime : Runtime) : Prop where
  delivered : ∀ push ∈ runtime.pushed, ∀ ticket, push.2.ticket = some ticket →
    (∃ answer ∈ runtime.answers, answer.1.ticket = ticket ∧ answer.2.id = push.2.request ∧
      answer.1.requestId = answer.2.id ∧ matchesRequest answer.1 answer.2.toRequest = true ∧
      answer.2.done = false ∧ answer.2.toRequest ∈ runtime.accepted) ∧
    ∀ event ∈ runtime.orphans, event.ticket ≠ ticket
  once : (runtime.answers.map fun answer => answer.2.id).Nodup
  turnedAway : ∀ event : CompletionEvent, (∀ entry ∈ runtime.inFlight,
      entry.id = event.requestId → entry.done = true ∨
        matchesRequest event entry.toRequest = false) →
    runtime.onCompletion event = (runtime.orphan event, none)

variable {runtime : Runtime}

theorem turned_away {event : CompletionEvent}
    (unfit : ∀ entry ∈ runtime.inFlight, entry.id = event.requestId →
      entry.done = true ∨ matchesRequest event entry.toRequest = false) :
    runtime.onCompletion event = (runtime.orphan event, none) := by
  unfold Runtime.onCompletion
  split
  · rfl
  rename_i entry found
  obtain ⟨inside, named⟩ := Runtime.find_mem found
  rcases unfit entry inside named with done | differs
  · rw [if_pos done]
  · rw [differs]
    split <;> rfl

variable {share : Multiset Token}

theorem retiredOnce_of_sound (sound : Sound rules runtime share) : RetiredOnce runtime := by
  have accounts := sound.accounts
  have fewer (request : Request) : runtime.retired.count request ≤ runtime.accepted.count request := by
    have split := accounts.accepted request
    omega
  have subperm : runtime.retired.Subperm runtime.accepted :=
    subperm_ext_iff.mpr fun request _ => fewer request
  refine ⟨accounts.nodup_of_count fewer, fun _ inside => subperm.subset inside, ?_,
    sound.provenance.queued, fun n => ?_, fun n => ?_⟩
  · intro request inside entry flying same
    have known := accounts.accepted_of_flight (Runtime.mem_requests flying)
    have equal := accounts.accepted_eq known.1 (subperm.subset inside) same
    exact known.2 (equal ▸ inside)
  · have pending := accounts.pending n
    unfold unretired
    omega
  · have pending := accounts.pending n
    have begun := accounts.begun n
    have fewer := subperm.countP_le fun request : Request => request.node = n
    omega

theorem allAccounted_of_sound (sound : Sound rules runtime 0) : AllAccounted runtime := by
  have accounts := sound.accounts
  have perm : runtime.accepted.Perm (runtime.requests ++ runtime.retired) := by
    rw [perm_iff_count]
    intro request
    have split := accounts.accepted request
    simpa [tally] using split
  refine ⟨perm, ?_, fun n => ?_⟩
  · simpa [tally, Runtime.requests] using accounts.counted
  · have pending := accounts.pending n
    have begun : runtime.begun n = runtime.accepted.countP fun request => request.node = n := by
      simpa [tally] using accounts.begun n
    have open_ : ∀ request ∈ runtime.requests, request ∉ runtime.retired :=
      fun request inside => (accounts.accepted_of_flight inside).2
    have flying : (runtime.accepted.filter fun request =>
        request.node = n ∧ request ∉ runtime.retired).length =
        runtime.requests.countP fun request => request.node = n := by
      rw [← countP_eq_length_filter, perm.countP_eq, countP_append]
      have none_left : runtime.retired.countP (fun request =>
          decide (request.node = n ∧ request ∉ runtime.retired)) = 0 :=
        countP_eq_zero.mpr fun request inside => by simp [inside]
      rw [none_left]
      exact countP_congr fun request inside => by simp [open_ request inside]
    have split : runtime.accepted.countP (fun request => request.node = n) =
        (runtime.requests.countP fun request => request.node = n) +
          runtime.retired.countP fun request => request.node = n := by
      rw [perm.countP_eq, countP_append]
    omega

theorem genuine_of_sound (sound : Sound rules runtime share) : Genuine runtime := by
  refine ⟨?_, sound.provenance.once, fun event unfit => turned_away unfit⟩
  intro push inside ticket told
  obtain ⟨answer, given, same, named, _⟩ := (sound.provenance.pushed push inside).event ticket told
  obtain ⟨accepted, request, agrees, open_⟩ := sound.provenance.answers answer given
  refine ⟨⟨answer, given, same, named, request, agrees, open_, accepted⟩, ?_⟩
  intro event turned equal
  -- A ticket is either that of an answer or that of an orphan.
  have tickets := sound.accounts.tickets ticket
  have first : 0 < runtime.answers.countP fun answer => answer.1.ticket = ticket :=
    countP_pos_iff.mpr ⟨answer, given, by simpa using same⟩
  have second : 0 < runtime.orphans.countP fun event => event.ticket = ticket :=
    countP_pos_iff.mpr ⟨event, turned, by simpa using equal⟩
  omega

theorem requests_retired_once {system : Running} (reached : Reached setup {} system) :
    RetiredOnce system.world ∧ Genuine system.world ∧
      (system.Quiescent → AllAccounted system.world) := by
  have shared := reached_shared reached
  obtain ⟨owned, _, _, sound⟩ := id shared
  exact ⟨retiredOnce_of_sound sound, genuine_of_sound sound,
    fun quiet => allAccounted_of_sound (shared_quiescent shared quiet)⟩

def single : Setup where
  outputPorts := fun _ _ => ["out"]
  routes := fun _ _ _ => [0]

def roomy : ChannelRef → EdgeQueue := fun _ => { policy := .block, capacity := 4 }

def request (version seq : Nat) : SubmitArgs :=
  { node := 7, session := 1, topology := version, parameter := 1, seq }

def result (id version seq : Nat) : CompletionEvent :=
  { requestId := id, sessionId := 1, topologyVersion := version, parameterVersion := 1,
    packetSeq := seq, outputs := [{ port := "out", packet := { seq } }] }

def served (thread turns : Nat) (arrival : Arrival) : List (Pick Choice Arrival) :=
  .arrive arrival :: replicate turns (.turn thread {})

/-- Two requests; the first gets a mismatched event, its answer and a duplicate, the second
is dropped with its session. -/
def droppedRun : List (Pick Choice Arrival) := flatten
  [served 0 0 (.attach 1 false), served 1 8 (.submit (request 1 10)),
    served 2 8 (.submit (request 1 11)), served 3 2 (.complete 0 (result 1 2 10)),
    served 4 2 (.complete 0 (result 1 1 10)), served 5 2 (.complete 0 (result 1 1 10)),
    served 6 22 (.pump 2), served 7 4 (.detach 1)]

theorem dropped_run_accounted :
    ∃ system, (asyncRuntime single).play {} ⟨fresh roomy, []⟩ droppedRun = some system ∧
      system.world.retired.map Request.id = [1, 2] ∧
      system.world.orphans.map CompletionEvent.ticket = [0, 2] ∧
      system.world.pushed = [(0, { node := 7, request := 1, ticket := some 1 })] ∧
      RetiredOnce system.world ∧ Genuine system.world ∧ AllAccounted system.world := by
  have seen : ((asyncRuntime single).play {} ⟨fresh roomy, []⟩ droppedRun).map (fun system =>
      (system.world.retired.map Request.id, system.world.orphans.map CompletionEvent.ticket,
        system.world.pushed, decide system.Quiescent)) =
      some ([1, 2], [0, 2], [(0, { node := 7, request := 1, ticket := some 1 })], true) := by
    decide +kernel
  obtain ⟨system, played, looks⟩ := Option.map_eq_some_iff.mp seen
  simp only [Prod.mk.injEq, decide_eq_true_eq] at looks
  obtain ⟨retired, orphans, pushed, quiet⟩ := looks
  obtain ⟨once, genuine, accounted⟩ := requests_retired_once (played_reached played)
  exact ⟨system, played, retired, orphans, pushed, once, genuine, accounted quiet⟩

/-- The outputs of the node on the edge, in the order of the submission of their
requests. -/
def InOrder (runtime : Runtime) (n : NodeRef) (e : ChannelRef) : Prop :=
  ((runtime.pushed.filter fun push => push.1 = e ∧ push.2.node = n).map fun push =>
    rank runtime.accepted push.2.request).Pairwise (· ≤ ·)

instance (runtime : Runtime) (n : NodeRef) (e : ChannelRef) : Decidable (InOrder runtime n e) :=
  inferInstanceAs (Decidable (List.Pairwise _ _))

/-- A request is accepted only while the open requests and the waiting outputs of its node
are of its version. -/
def versionsApart : Rules Runtime Op Arrival where
  meets runtime op :=
    match op with
    | .insert _ args => oneVersion runtime args
    | _ => true

theorem outputs_in_order {system : Running} (reached : Reached setup versionsApart system)
    (n : NodeRef) (e : ChannelRef) : InOrder system.world n e := by
  obtain ⟨owned, _, _, sound⟩ := reached_shared reached
  have ordered := sound.ordered fun _ _ _ meets => meets
  refine pairwise_map.mpr ?_
  refine (ordered.order.filter _).imp_of_mem ?_
  intro earlier later first second before
  have left := (mem_filter.mp first).2
  have right := (mem_filter.mp second).2
  simp only [decide_eq_true_eq] at left right
  exact before (left.2.trans right.2.symm)

/-- The second request completes first and waits for the first; the new version starts
when both are retired. -/
def orderedRun : List (Pick Choice Arrival) := flatten
  [served 0 0 (.attach 1 false), served 1 8 (.submit (request 1 10)),
    served 2 8 (.submit (request 1 11)), served 3 2 (.complete 0 (result 2 1 11)),
    served 4 9 (.pump 2), served 5 2 (.complete 0 (result 1 1 10)), served 6 27 (.pump 2),
    served 7 8 (.submit (request 2 12)), served 8 2 (.complete 0 (result 3 2 12)),
    served 9 18 (.pump 2)]

theorem ordered_run_in_order :
    ∃ system, (asyncRuntime single).play versionsApart ⟨fresh roomy, []⟩ orderedRun = some system ∧
      system.world.pushed.map (fun push => push.2.request) = [1, 2, 3] ∧
      InOrder system.world 7 0 := by
  have seen : ((asyncRuntime single).play versionsApart ⟨fresh roomy, []⟩ orderedRun).map
      (fun system => system.world.pushed.map fun push => push.2.request) = some [1, 2, 3] := by
    decide +kernel
  obtain ⟨system, played, pushed⟩ := Option.map_eq_some_iff.mp seen
  exact ⟨system, played, pushed, outputs_in_order (played_reached played) 7 0⟩

/-- A request of the old version is still open when one of the new version is accepted and
completes. -/
def overtakingRun : List (Pick Choice Arrival) := flatten
  [served 0 0 (.attach 1 false), served 1 8 (.submit (request 1 10)),
    served 2 8 (.submit (request 2 11)), served 3 2 (.complete 0 (result 2 2 11)),
    served 4 18 (.pump 3), served 5 2 (.complete 0 (result 1 1 10)), served 6 18 (.pump 3)]

theorem newer_version_overtakes :
    ∃ system, Reached single {} system ∧ system.world.accepted.map Request.id = [1, 2] ∧
      system.world.pushed.map (fun push => (push.1, push.2.node, push.2.request)) =
        [(0, 7, 2), (0, 7, 1)] ∧ ¬ InOrder system.world 7 0 := by
  have seen : ((asyncRuntime single).play {} ⟨fresh roomy, []⟩ overtakingRun).map (fun system =>
      (system.world.accepted.map Request.id,
        system.world.pushed.map fun push => (push.1, push.2.node, push.2.request),
        decide (InOrder system.world 7 0))) =
      some ([1, 2], [(0, 7, 2), (0, 7, 1)], false) := by
    decide +kernel
  obtain ⟨system, played, looks⟩ := Option.map_eq_some_iff.mp seen
  simp only [Prod.mk.injEq, decide_eq_false_iff_not] at looks
  exact ⟨system, played_reached played, looks.1, looks.2.1, looks.2.2⟩

end GraphEngine.RequestRuns
