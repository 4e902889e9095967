import GraphEngine.BindingRuns

/-!
What operators get from their input bindings. A call of `TryAcquire` loses no
packet; what it delivers passed its tests unless a producer evicted a packet between
a look and a pop; and over the life of a binding each port delivers its edges one
after the other.
-/

namespace GraphEngine.PortDeliveries

open Values GraphSpecs NodeRuntimes EdgeQueues InputBindings AcquireBooks HeadSkims
  Acquisitions AlignedAcquisitions Precedence Runs BindingRuns StatePrograms List

def singlePort (policy : SyncPolicy) (drop : DropPolicy) (capacity : Nat) : BindingRun where
  binding := {
    edges := fun _ => { policy := drop, capacity }
    ports := [⟨"in", some 0, true, []⟩]
    policy }
  bound := [("in", 0)]

theorem singlePort_created (policy : SyncPolicy) (drop : DropPolicy) (capacity : Nat) :
    Created (singlePort policy drop capacity) where
  names := by simp [singlePort]
  plain := by simp [singlePort]
  bound := rfl
  apart := by simp [singlePort]
  edges := fun _ => ⟨drop, capacity, rfl⟩
  counters := ⟨rfl, rfl⟩
  log := rfl

def pushed (ref : ChannelRef) (packet : Packet) (run : BindingRun) : BindingRun :=
  updated ref (Move.push packet).apply run

theorem pushed_reachable {run : BindingRun} (reached : Reachable Created Step run)
    (ref : ChannelRef) (packet : Packet) : Reachable Created Step (pushed ref packet run) :=
  reached.next (.move ref (.push packet))

def acquired (bound : Nat) (run : BindingRun) : BindingRun :=
  match tryAcquire bound (begun [] run.binding) with
  | some (_, after) => recorded (begun [] run.binding) after run
  | none => run

theorem acquired_reachable {run : BindingRun} (reached : Reachable Created Step run) (bound : Nat)
    (enough : weight (begun [] run.binding) < bound) :
    Reachable Created Step (acquired bound run) := by
  have distinct := (reachable_tracked reached).distinct
  obtain ⟨result, after, returns, -⟩ := tryAcquire_ensures (begun_ready distinct []) rfl enough
  unfold acquired
  rw [returns]
  exact reached.next (.acquire enough returns)

/-- Two required ports, the reference first; the edges hold two packets each. -/
def twoPorts (window : Int) (first second : List Packet) : BindingRun :=
  let run : BindingRun := {
    binding := {
      edges := fun _ => { policy := .dropOldest, capacity := 2 }
      ports := [⟨"video", some 0, true, []⟩, ⟨"audio", some 1, true, []⟩]
      policy := .aligned
      aligned := { windowNs := window, referencePort := some "video" } }
    bound := [("video", 0), ("audio", 1)] }
  second.foldl (fun run packet => pushed 1 packet run)
    (first.foldl (fun run packet => pushed 0 packet run) run)

theorem foldl_pushed_reachable {run : BindingRun} (reached : Reachable Created Step run)
    (ref : ChannelRef) (packets : List Packet) :
    Reachable Created Step (packets.foldl (fun run packet => pushed ref packet run) run) := by
  exact foldlRecOn packets _ reached fun _ reached packet _ => pushed_reachable reached ref packet

theorem twoPorts_reachable (window : Int) (first second : List Packet) :
    Reachable Created Step (twoPorts window first second) :=
  foldl_pushed_reachable (foldl_pushed_reachable (.initial
    ⟨by simp, by simp, rfl, by simp, fun _ => ⟨_, _, rfl⟩, ⟨rfl, rfl⟩, rfl⟩) 0 first) 1 second

section Conservation

/-- Every packet taken off an edge has one fate, which the batch, the ended ports and
the counters show. -/
structure Conserves (start after : Acquisition) (result : Option InputBatch) : Prop where
  queues : ∀ ref, (start.edges ref).queue = removedFrom after ref ++ (after.edges ref).queue
  own : ∀ removal ∈ after.removed, removal.edge ∈ edgesAt start removal.port
  settled : (account after).map Prod.fst = after.removed
  suits : ∀ entry ∈ account after, Suits entry.1.packet entry.2
  packets : after.batch.packets =
    ((account after).filter fun entry => entry.2 = .delivered).map fun entry => entry.1.packet
  packetPorts : after.batch.ports =
    ((account after).filter fun entry => entry.2 = .delivered).map
      fun entry => portName start entry.1.port
  events : after.batch.events =
    ((account after).filter fun entry => entry.2 = .event).map fun entry => entry.1.packet
  eventPorts : after.batch.eventPorts =
    ((account after).filter fun entry => entry.2 = .event).map
      fun entry => portName start entry.1.port
  markers : ∀ entry ∈ account after, entry.2 = .marker → Recorded start after entry.1
  late : after.lateDropped = start.lateDropped + .ofNat (((account after).map Prod.snd).count .late)
  stale : after.staleDropped =
    start.staleDropped + .ofNat (((account after).map Prod.snd).count .stale)
  ordered : ∀ (port : Nat) (binding : InputPortBinding), start.ports[port]? = some binding →
    Forward (bindingEdges binding) Removal.edge
      (after.removed.filter fun removal => removal.port = port)
  answers : Answers result after
  nothing : result = none → ∀ entry ∈ account after,
    entry.2 = .marker ∨ entry.2 = .late ∨ entry.2 = .stale

variable {start after : Acquisition} {result : Option InputBatch}

theorem nothing_handed (ready : Ready start after) (answers : Answers result after)
    (none : result = none) : ∀ entry ∈ account after,
      entry.2 = .marker ∨ entry.2 = .late ∨ entry.2 = .stale := by
  rcases answers with ⟨some, -⟩ | ⟨-, packets, events⟩
  · rw [none] at some
    cases some
  · have undelivered := ready.packets.symm.trans packets
    have unseen := ready.events.symm.trans events
    rw [map_eq_nil_iff, filter_eq_nil_iff] at undelivered unseen
    intro entry listed
    have one := undelivered entry listed
    have two := unseen entry listed
    cases kind : entry.2 <;> simp [kind] at one two ⊢

theorem ready_conserves (ready : Ready start after) (answers : Answers result after)
    (still : start.script = []) (seen : ∀ ref, start.unseen ref = false)
    (fresh : start.raced = false) : Conserves start after result := by
  have calm : after.raced = false := (ready.calm still seen).1.trans fresh
  have fates := account_fates ready
  exact {
    ready with
    queues := (ready.kept still).2
    own := ready.member
    settled := account_removed ready
    suits := ready.suits calm
    markers := ready.recorded
    late := fates ▸ ready.late
    stale := fates ▸ ready.stale
    ordered := ready.forward
    answers := answers
    nothing := nothing_handed ready answers }

/-- One call of `TryAcquire` on a binding at any point of its life, under each policy. -/
theorem acquisition_conserves_packets {run : BindingRun} (reached : Reachable Created Step run)
    (bound : Nat) (enough : weight (begun [] run.binding) < bound) :
    ∃ result after, tryAcquire bound (begun [] run.binding) = some (result, after) ∧
      Conserves (begun [] run.binding) after result := by
  have tracked := reachable_tracked reached
  obtain ⟨result, after, returns, ready, answers, -⟩ :=
    tryAcquire_ensures (begun_ready tracked.distinct []) rfl enough
  exact ⟨result, after, returns, ready_conserves ready answers rfl (fun _ => rfl) rfl⟩

theorem acquisition_conserves_event_and_data :
    let run := pushed 0 ⟨2, 5, false, false⟩ (pushed 0 ⟨1, 4, false, true⟩
      (singlePort .latest .block 4))
    Reachable Created Step run ∧ weight (begun [] run.binding) < 10 ∧
      ∃ result after, tryAcquire 10 (begun [] run.binding) = some (result, after) ∧
        Conserves (begun [] run.binding) after result :=
  have reached := pushed_reachable (pushed_reachable (.initial (singlePort_created _ _ _)) _ _) _ _
  ⟨reached, by decide, acquisition_conserves_packets reached 10 (by decide)⟩

end Conservation

structure PassedTests (start after : Acquisition) : Prop where
  data : ∀ packet ∈ after.batch.packets, packet.isData = true
  events : ∀ packet ∈ after.batch.events, packet.event = true ∧ packet.eos = false
  aligned : start.policy = .aligned → ∃ reference target, ∀ entry ∈ account after,
    entry.2 = .delivered → Tested start.aligned.windowNs reference target entry.1

theorem ready_passed {start after : Acquisition} (ready : Ready start after)
    (tested : PolicyTested start after) (calm : after.raced = false) : PassedTests start after := by
  refine ⟨?_, ?_, ?_⟩
  · intro packet member
    rw [ready.packets] at member
    obtain ⟨entry, listed, rfl⟩ := mem_map.mp member
    obtain ⟨inside, kind⟩ := mem_filter.mp listed
    have suits := ready.suits calm entry inside
    rwa [of_decide_eq_true kind] at suits
  · intro packet member
    rw [ready.events] at member
    obtain ⟨entry, listed, rfl⟩ := mem_map.mp member
    obtain ⟨inside, kind⟩ := mem_filter.mp listed
    have suits := ready.suits calm entry inside
    rw [of_decide_eq_true kind] at suits
    exact ⟨suits.2, suits.1⟩
  · intro policy
    obtain ⟨reference, target, -, holds⟩ := tested policy
    exact ⟨reference, target, holds calm⟩

section Histories

/-- Only markers enter an edge behind a marker. -/
def Unbehind (_ after : BindingRun) : Prop :=
  ∀ ref, (after.binding.edges ref).entered.Pairwise fun earlier later =>
    earlier.eos = true → later.eos = true

def edgeLog (run : BindingRun) (name : String) (ref : ChannelRef) : List Delivery :=
  (portLog run name).filter fun delivery => delivery.edge = ref

def handed (delivery : Delivery) : Bool := delivery.fate = .delivered || delivery.fate = .event

/-- The port delivers the contents of its edges, one edge after the other. -/
structure EdgeByEdge (run : BindingRun) (name : String) : Prop where
  concatenated : portLog run name = (chain run name).flatMap (edgeLog run name)
  delivered : (portLog run name).filter handed =
    (chain run name).flatMap fun ref => (edgeLog run name ref).filter handed
  contents : ∀ ref ∈ chain run name,
    (edgeLog run name ref).map Delivery.packet = (run.binding.edges ref).taken
  accounted : ∀ ref, (run.binding.edges ref).Accounted
  upToMarker : ∀ ref, (edgeLog run name ref).Pairwise fun earlier later =>
    earlier.packet.eos = true → later.packet.eos = true
  waited : ∀ earlier delivery later, run.log = earlier ++ delivery :: later →
    ∀ ref, Precedes (chain run delivery.port) ref delivery.edge → delivery.retired ref = true ∨
      ∃ other ∈ earlier, other.edge = ref ∧ other.packet.eos = true
  suits : ∀ delivery ∈ run.log, delivery.raced = false → Suits delivery.packet delivery.fate
  late : run.binding.lateDropped = .ofNat ((run.log.map Delivery.fate).count .late)
  stale : run.binding.staleDropped = .ofNat ((run.log.map Delivery.fate).count .stale)

variable {run : BindingRun}

theorem reachable_unbehind (reached : Reachable Created (Under Unbehind Step) run)
    (ref : ChannelRef) : (run.binding.edges ref).entered.Pairwise fun earlier later =>
      earlier.eos = true → later.eos = true := by
  cases reached with
  | initial created =>
    obtain ⟨policy, capacity, same⟩ := created.edges ref
    simp [same]
  | next _ taken => exact taken.2 ref

theorem edgeLog_taken (tracked : Tracked run) {name : String} {ref : ChannelRef}
    (inside : ref ∈ chain run name) :
    (edgeLog run name ref).map Delivery.packet = (run.binding.edges ref).taken := by
  rw [tracked.taken ref, edgeLog, portLog, filter_filter]
  congr 1
  apply filter_congr
  intro delivery listed
  by_cases here : delivery.edge = ref
  · have same : delivery.port = name :=
      chain_unique tracked.apart (tracked.listed delivery listed) (here ▸ inside)
    simp [same]
  · simp [here]

theorem port_delivers_edge_by_edge (reached : Reachable Created (Under Unbehind Step) run)
    (name : String) : EdgeByEdge run name := by
  have tracked := reachable_tracked (reachable_of_under reached)
  have distinct := chain_nodup tracked.apart name
  have listed : ∀ delivery ∈ portLog run name, delivery.edge ∈ chain run name := by
    intro delivery member
    obtain ⟨inside, same⟩ := mem_filter.mp member
    have known := tracked.listed delivery inside
    rwa [of_decide_eq_true same] at known
  have grouped := forward_grouped distinct (portLog run name) (tracked.forward name) listed
  refine ⟨grouped, ?_, fun ref inside => edgeLog_taken tracked inside, tracked.accounted, ?_,
    tracked.waited, tracked.suits, tracked.late, tracked.stale⟩
  · calc (portLog run name).filter handed
        = ((chain run name).flatMap (edgeLog run name)).filter handed :=
          congrArg (filter handed) grouped
      _ = (chain run name).flatMap fun ref => (edgeLog run name ref).filter handed := filter_flatMap
  · intro ref
    by_cases inside : ref ∈ chain run name
    · have order := reachable_unbehind reached ref
      have kept : (run.binding.edges ref).taken.Sublist (run.binding.edges ref).entered :=
        (sublist_append_left _ _).trans (tracked.accounted ref).ordered
      have taken := order.sublist kept
      rw [← edgeLog_taken tracked inside, pairwise_map] at taken
      exact taken
    · have none : edgeLog run name ref = [] := by
        refine filter_eq_nil_iff.mpr fun delivery member same => inside ?_
        exact of_decide_eq_true same ▸ listed delivery member
      rw [none]
      exact .nil

def rewired (ref : ChannelRef) (run : BindingRun) : BindingRun :=
  rewire [⟨"in", some ref, true, []⟩] .any {} run

/-- The port is moved to edge 1 while edge 0 still holds a packet and its marker. -/
theorem rewired_port_delivers_in_turn :
    let moved := pushed 1 ⟨3, 6, false, false⟩ (rewired 1 (pushed 0 ⟨2, 0, true, false⟩
      (pushed 0 ⟨1, 4, false, false⟩ (singlePort .any .block 4))))
    let run := acquired 10 (acquired 10 moved)
    Reachable Created (Under Unbehind Step) run ∧
      (portLog run "in").map (fun delivery => (delivery.edge, delivery.packet.seq, delivery.fate)) =
        [(0, 1, .delivered), (0, 2, .marker), (1, 3, .delivered)] ∧ EdgeByEdge run "in" := by
  intro moved run
  have still : ∀ other : BindingRun, ((other.binding.edges 0).entered.Pairwise fun earlier later =>
      earlier.eos = true → later.eos = true) → ((other.binding.edges 1).entered.Pairwise
      fun earlier later => earlier.eos = true → later.eos = true) →
      (∀ ref, (other.binding.edges (ref + 2)).entered = []) → Unbehind other other := by
    rintro other first second rest (_ | _ | ref)
    · exact first
    · exact second
    · rw [rest]
      exact .nil
  have reached : Reachable Created (Under Unbehind Step) run := by
    refine .next (.next (.next (.next (.next (.next (.initial (singlePort_created _ _ _))
      ⟨.move 0 (.push ⟨1, 4, false, false⟩), ?_⟩) ⟨.move 0 (.push ⟨2, 0, true, false⟩), ?_⟩)
      ⟨.rebind .any {} ⟨by decide, by decide, by decide, by decide⟩, ?_⟩)
      ⟨.move 1 (.push ⟨3, 6, false, false⟩), ?_⟩) ⟨.acquire (show _ < 10 by decide) rfl, ?_⟩)
      ⟨.acquire (show _ < 10 by decide) rfl, ?_⟩
    all_goals exact still _ (by decide) (by decide) (fun _ => rfl)
  exact ⟨reached, by decide, port_delivers_edge_by_edge reached "in"⟩

/-- The marker of edge 0 is consumed, a data packet enters behind it, and the port is
rewired: edge 0 goes on feeding the port, which delivers the packet. -/
theorem rewired_port_delivers_behind_marker :
    let ended := acquired 10 (pushed 0 ⟨1, 0, true, false⟩ (singlePort .any .block 4))
    let run := acquired 10 (rewired 1 (pushed 0 ⟨2, 4, false, false⟩ ended))
    Reachable Created Step run ∧
      (edgeLog run "in" 0).map (fun delivery => (delivery.packet.seq, delivery.fate)) =
        [(1, .marker), (2, .delivered)] ∧
      ¬ EdgeByEdge run "in" := by
  intro ended run
  have first : Reachable Created Step ended :=
    acquired_reachable (pushed_reachable (.initial (singlePort_created _ _ _)) _ _) 10 (by decide)
  have filled : Reachable Created Step (pushed 0 ⟨2, 4, false, false⟩ ended) :=
    pushed_reachable first _ _
  have moved : Reachable Created Step (rewired 1 (pushed 0 ⟨2, 4, false, false⟩ ended)) :=
    filled.next (.rebind .any {} ⟨by decide, by decide, by decide, by decide⟩)
  refine ⟨acquired_reachable moved 10 (by decide), by decide, fun history => ?_⟩
  have behind := history.upToMarker 0
  revert behind
  decide

end Histories

section Closest

def queuedData (start : Acquisition) (port : Nat) : List Packet :=
  ((edgesAt start port).flatMap fun ref => (start.edges ref).queue).filter Packet.isData

def InWindow (start : Acquisition) (target : Int) (packet : Packet) : Prop :=
  target - start.aligned.windowNs ≤ packet.pts ∧ packet.pts ≤ target + start.aligned.windowNs

/-- Of the packets queued for its port inside the window, none is closer to the target. -/
structure Closest (start : Acquisition) (target : Int) (removal : Removal) : Prop where
  queued : removal.packet ∈ queuedData start removal.port
  inside : InWindow start target removal.packet
  closest : ∀ other ∈ queuedData start removal.port, InWindow start target other →
    |removal.packet.pts - target| ≤ |other.pts - target|

/-- The window of no packet wraps around, and no two timestamps queued for a port are both inside
a window, unless at its two ends. -/
structure Spaced (start : Acquisition) : Prop where
  fits : ∀ port, ∀ packet ∈ queuedData start port,
    int64 (packet.pts - start.aligned.windowNs) = packet.pts - start.aligned.windowNs ∧
      int64 (packet.pts + start.aligned.windowNs) = packet.pts + start.aligned.windowNs
  apart : ∀ port, ∀ left ∈ queuedData start port, ∀ right ∈ queuedData start port,
    left.pts < right.pts → 2 * start.aligned.windowNs ≤ right.pts - left.pts

variable {start after : Acquisition} {result : Option InputBatch}

theorem delivered_queued (conserves : Conserves start after result) {entry : Removal × Fate}
    (listed : entry ∈ account after) (delivered : entry.2 = .delivered) :
    entry.1.packet ∈ queuedData start entry.1.port := by
  have removed : entry.1 ∈ after.removed := by
    rw [← conserves.settled]
    exact mem_map_of_mem listed
  have suits := conserves.suits entry listed
  rw [delivered] at suits
  refine mem_filter.mpr ⟨mem_flatMap.mpr ⟨_, conserves.own _ removed, ?_⟩, suits⟩
  rw [conserves.queues, mem_append]
  exact .inl (mem_map_of_mem (mem_filter.mpr ⟨removed, by simp⟩))

theorem target_fits (conserves : Conserves (begun [] start) after result)
    (spaced : Spaced (begun [] start)) {reference : Nat} {target : Int}
    (source : after.batch.packets = [] ∨ Queued (begun [] start) reference target)
    {entry : Removal × Fate} (listed : entry ∈ account after) (delivered : entry.2 = .delivered) :
    int64 (target - (begun [] start).aligned.windowNs) = target - start.aligned.windowNs ∧
      int64 (target + (begun [] start).aligned.windowNs) = target + start.aligned.windowNs := by
  rcases source with none | queued
  · rw [conserves.packets, map_eq_nil_iff, filter_eq_nil_iff] at none
    exact absurd (decide_eq_true delivered) (none entry listed)
  · obtain ⟨ref, bound, packet, inside, data, rfl⟩ := queued rfl fun _ => rfl
    exact spaced.fits reference packet (mem_filter.mpr ⟨mem_flatMap.mpr ⟨ref, bound, inside⟩, data⟩)

/-- Under the aligned policy, with queues spaced out, the other ports contribute their packets
closest to the reference packet. -/
theorem spaced_closest {run : BindingRun} (reached : Reachable Created Step run)
    (bound : Nat) (enough : weight (begun [] run.binding) < bound)
    (policy : run.binding.policy = .aligned) (spaced : Spaced (begun [] run.binding)) :
    ∃ result after, tryAcquire bound (begun [] run.binding) = some (result, after) ∧
      Conserves (begun [] run.binding) after result ∧
      ∃ reference target, ∀ entry ∈ account after, entry.2 = .delivered →
        if entry.1.port = reference then entry.1.packet.pts = target
        else Closest (begun [] run.binding) target entry.1 := by
  have tracked := reachable_tracked reached
  obtain ⟨result, after, returns, ready, answers, tested⟩ :=
    tryAcquire_ensures (begun_ready tracked.distinct []) rfl enough
  have conserves := ready_conserves ready answers rfl (fun _ => rfl) rfl
  obtain ⟨reference, target, source, passed⟩ := tested policy
  have calm : after.raced = false := (ready.calm rfl fun _ => rfl).1
  refine ⟨result, after, returns, conserves, reference, target, fun entry listed delivered => ?_⟩
  have test := passed calm entry listed delivered
  unfold Tested at test
  split_ifs at test ⊢
  · exact test
  · have queued := delivered_queued conserves listed delivered
    have inside : InWindow (begun [] run.binding) target entry.1.packet := by
      obtain ⟨below, above⟩ := target_fits conserves spaced source listed delivered
      rwa [below, above] at test
    refine ⟨queued, inside, fun other member near => ?_⟩
    -- Two timestamps in the window are the same or its two ends.
    have before := spaced.apart _ other member _ queued
    have behind := spaced.apart _ _ queued other member
    unfold InWindow at inside near
    have same : entry.1.packet.pts - target = other.pts - target ∨
        entry.1.packet.pts - target = -(other.pts - target) := by omega
    rcases same with same | same
    · rw [same]
    · rw [same, abs_neg]

theorem head_in_window_delivered {window target first second : Int}
    (below : ¬ first < int64 (target - window)) (above : first ≤ int64 (target + window)) :
    Ensures (tryAcquire 10) (begun [] (twoPorts window [⟨1, target, false, false⟩]
      [⟨1, first, false, false⟩, ⟨2, second, false, false⟩]).binding) fun _ after =>
        account after = [(⟨0, 0, ⟨1, target, false, false⟩⟩, .delivered),
          (⟨1, 1, ⟨1, first, false, false⟩⟩, .delivered)] := by
  refine ensures_get_bind (ensures_get_bind ?_)
  refine ensures_bind ⟨some (0, ⟨1, target, false, false⟩), _, rfl, ?_⟩
  refine ensures_bind (ensures_bind ⟨some ⟨1, first, false, false⟩, _, rfl, ?_⟩)
  refine ensures_bind ⟨some ⟨1, first, false, false⟩, _,
    congrArg (fun program : Acquire (Option Packet) => program _) (if_neg below), ?_⟩
  exact ⟨_, _, congrArg (fun program : Acquire Classified => program _) (if_pos above),
    _, _, rfl, rfl⟩

/-- Two timestamps that are too close: there is a reference packet whose window has both, and
the later one is closer to it. -/
theorem close_timestamps_misserved {window first second : Int} (order : first < second)
    (close : second - first < 2 * window)
    (fits : -2 ^ 63 ≤ first - window ∧ second + window < 2 ^ 63) :
    ∃ target, ∃ result after,
      let start := begun [] (twoPorts window [⟨1, target, false, false⟩]
        [⟨1, first, false, false⟩, ⟨2, second, false, false⟩]).binding
      tryAcquire 10 start = some (result, after) ∧ ∃ entry ∈ account after,
        entry.2 = .delivered ∧ entry.1.port ≠ 0 ∧ ¬ Closest start target entry.1 := by
  obtain ⟨target, near, late, early⟩ : ∃ target, |second - target| < |first - target| ∧
      target - window ≤ first ∧ first ≤ target ∧ target ≤ second ∧ second ≤ target + window := by
    by_cases one : second - first ≤ window
    · refine ⟨second, ?_, by omega⟩
      rw [sub_self, abs_zero, abs_pos]
      omega
    · refine ⟨first + window, ?_, by omega⟩
      rw [abs_of_pos, abs_of_nonpos] <;> omega
  have below : ¬ first < int64 (target - window) := by
    rw [int64_exact (by omega) (by omega)]
    omega
  have above : first ≤ int64 (target + window) := by
    rw [int64_exact (by omega) (by omega)]
    omega
  obtain ⟨result, after, returns, shown⟩ := @head_in_window_delivered _ _ _ second below above
  refine ⟨target, result, after, returns, _, shown ▸ mem_cons_of_mem _ mem_cons_self, rfl,
    Nat.one_ne_zero, fun closest => ?_⟩
  have queued : ⟨2, second, false, false⟩ ∈ queuedData (begun [] (twoPorts window
      [⟨1, target, false, false⟩] [⟨1, first, false, false⟩, ⟨2, second, false, false⟩]).binding) 1 :=
    mem_cons_of_mem _ mem_cons_self
  have inside : target - window ≤ second ∧ second ≤ target + window := by omega
  exact absurd (closest.closest _ queued inside) (not_le.mpr near)

end Closest

end GraphEngine.PortDeliveries
