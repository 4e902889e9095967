import GraphEngine.AlignedAcquisitions
import GraphEngine.Runs

/-!
The life of an input binding: rebinds, calls of the producers on its edges, retired
edges and acquisitions, in any order. The run keeps the order in which edges were
bound to the ports and a log of everything the acquisitions took off them.
-/

namespace GraphEngine.BindingRuns

open GraphSpecs NodeRuntimes EdgeQueues StatePrograms InputBindings AcquireBooks HeadSkims
  AlignedAcquisitions Precedence Runs List InputPortBinding Function

structure Delivery where
  port : String
  edge : ChannelRef
  packet : Packet
  fate : Fate
  /-- The edges that were retired when the call began. -/
  retired : ChannelRef → Bool
  /-- An eviction came between a look and a pop of the call. -/
  raced : Bool

structure BindingRun where
  binding : Acquisition
  /-- The edges bound to the ports so far, in order. -/
  bound : List (String × ChannelRef)
  log : List Delivery := []

def begun (script : List (List (ChannelRef × Move))) (binding : Acquisition) : Acquisition :=
  { binding with
    script := script, unseen := fun _ => false, batch := {}, removed := [], fates := []
    raced := false }

def delivery (start after : Acquisition) (entry : Removal × Fate) : Delivery where
  port := portName start entry.1.port
  edge := entry.1.edge
  packet := entry.1.packet
  fate := entry.2
  retired := fun ref => (start.edges ref).state = .retired
  raced := after.raced

def recorded (start after : Acquisition) (run : BindingRun) : BindingRun :=
  { run with
    binding := begun [] after
    log := run.log ++ (account after).map (delivery start after) }

def updated (ref : ChannelRef) (change : EdgeQueue → EdgeQueue) (run : BindingRun) : BindingRun :=
  { run with binding := { run.binding with
      edges := update run.binding.edges ref (change (run.binding.edges ref)) } }

def added (state : Acquisition) (next : InputPortBinding) : List ChannelRef :=
  match findPort state.ports next.port with
  | none => next.edge.toList
  | some old => if old.edge = next.edge then [] else next.edge.toList

def rewire (next : List InputPortBinding) (policy : SyncPolicy) (aligned : AlignedOptions)
    (run : BindingRun) : BindingRun :=
  { run with
    binding := rebind next policy aligned run.binding
    bound := run.bound ++ next.flatMap fun binding =>
      (added run.binding binding).map fun ref => (binding.port, ref) }

/-- A port table with one edge for each port, and new edges for rewired ports. -/
structure Rewires (run : BindingRun) (next : List InputPortBinding) : Prop where
  names : (next.map port).Nodup
  plain : ∀ binding ∈ next, binding.predecessors = []
  fresh : ∀ binding ∈ next, ∀ ref ∈ added run.binding binding, ref ∉ run.bound.map Prod.snd
  apart : (next.flatMap (added run.binding)).Nodup

inductive Step : BindingRun → BindingRun → Prop where
  | move {run : BindingRun} (ref : ChannelRef) (move : Move) :
      Step run (updated ref move.apply run)
  | retire {run : BindingRun} (ref : ChannelRef) (fast : Bool) :
      Step run (updated ref (EdgeQueue.markRetired fast) run)
  | rebind {run : BindingRun} {next : List InputPortBinding} (policy : SyncPolicy)
      (aligned : AlignedOptions) (rewires : Rewires run next) :
      Step run (rewire next policy aligned run)
  | acquire {run : BindingRun} {script : List (List (ChannelRef × Move))} {bound : Nat}
      {result : Option InputBatch} {after : Acquisition}
      (enough : weight (begun script run.binding) < bound)
      (returns : tryAcquire bound (begun script run.binding) = some (result, after)) :
      Step run (recorded (begun script run.binding) after run)

structure Created (run : BindingRun) : Prop where
  names : (run.binding.ports.map port).Nodup
  plain : ∀ binding ∈ run.binding.ports, binding.predecessors = []
  bound : run.bound = run.binding.ports.flatMap fun binding =>
    binding.edge.toList.map fun ref => (binding.port, ref)
  apart : (run.bound.map Prod.snd).Nodup
  edges : ∀ ref, ∃ policy capacity, run.binding.edges ref = { policy, capacity }
  counters : run.binding.lateDropped = 0 ∧ run.binding.staleDropped = 0
  log : run.log = []

def chain (run : BindingRun) (name : String) : List ChannelRef :=
  (run.bound.filter fun entry => entry.1 = name).map Prod.snd

def portLog (run : BindingRun) (name : String) : List Delivery :=
  run.log.filter fun delivery => delivery.port = name

/-- What the run knows about its edges: an edge that left its port is retired, and
an edge that was passed over is dead. -/
structure Tracked (run : BindingRun) : Prop where
  names : (run.binding.ports.map port).Nodup
  apart : (run.bound.map Prod.snd).Nodup
  inChain : ∀ binding ∈ run.binding.ports, (bindingEdges binding).Sublist
    (chain run binding.port)
  left : ∀ name, ∀ ref ∈ chain run name,
    (∀ binding ∈ run.binding.ports, binding.port = name → ref ∉ bindingEdges binding) →
      (run.binding.edges ref).state = .retired
  listed : ∀ delivery ∈ run.log, delivery.edge ∈ chain run delivery.port
  passed : ∀ delivery ∈ run.log, ∀ ref, Precedes (chain run delivery.port) ref delivery.edge →
    ∀ binding ∈ run.binding.ports, binding.port = delivery.port → ref ∈ bindingEdges binding →
      live run.binding.toChannels ref = false
  waited : ∀ earlier delivery later, run.log = earlier ++ delivery :: later →
    ∀ ref, Precedes (chain run delivery.port) ref delivery.edge → delivery.retired ref = true ∨
      ∃ other ∈ earlier, other.edge = ref ∧ other.packet.eos = true
  forward : ∀ name, Forward (chain run name) Delivery.edge (portLog run name)
  taken : ∀ ref, (run.binding.edges ref).taken =
    (run.log.filter fun delivery => delivery.edge = ref).map Delivery.packet
  accounted : ∀ ref, (run.binding.edges ref).Accounted
  suits : ∀ delivery ∈ run.log, delivery.raced = false → Suits delivery.packet delivery.fate
  late : run.binding.lateDropped = .ofNat ((run.log.map Delivery.fate).count .late)
  stale : run.binding.staleDropped = .ofNat ((run.log.map Delivery.fate).count .stale)

variable {run : BindingRun}
variable {ref : ChannelRef} {name : String}
variable {binding : InputPortBinding}


theorem mem_chain : ref ∈ chain run name ↔ (name, ref) ∈ run.bound := by
  simp [chain]

theorem chain_nodup (apart : (run.bound.map Prod.snd).Nodup) (name : String) :
    (chain run name).Nodup :=
  (filter_sublist.map Prod.snd).nodup apart

theorem chain_unique (apart : (run.bound.map Prod.snd).Nodup) {first second : String}
    (one : ref ∈ chain run first) (two : ref ∈ chain run second) : first = second := by
  rw [mem_chain] at one two
  have same := inj_on_of_nodup_map apart one two rfl
  exact congrArg Prod.fst same

theorem Tracked.distinct (tracked : Tracked run) : Distinct run.binding := by
  refine nodup_flatMap.mpr ⟨?_, ?_⟩
  · intro binding listed
    exact (tracked.inChain binding listed).nodup (chain_nodup tracked.apart _)
  · have names := tracked.names
    rw [List.Nodup, pairwise_map] at names
    refine names.imp_of_mem ?_
    intro first second one two differ ref left right
    exact differ (chain_unique tracked.apart ((tracked.inChain first one).subset left)
      ((tracked.inChain second two).subset right))

/-- Time passes on the edges: nothing is taken, and what is dead stays dead. -/
structure Ages (before after : Channels) : Prop where
  retired : ∀ ref, (before.edges ref).state = .retired → (after.edges ref).state = .retired
  dead : ∀ ref, live before ref = false → live after ref = false
  taken : ∀ ref, (after.edges ref).taken = (before.edges ref).taken
  accounted : (∀ ref, (before.edges ref).Accounted) → ∀ ref, (after.edges ref).Accounted

variable {channels : Channels}

theorem Tracked.ages (tracked : Tracked run) (ages : Ages run.binding.toChannels channels) :
    Tracked { run with binding := { run.binding with toChannels := channels } } :=
  { tracked with
    left := fun name ref listed gone => ages.retired ref (tracked.left name ref listed gone)
    passed := fun delivery listed ref precedes binding member name inside =>
      ages.dead ref (tracked.passed delivery listed ref precedes binding member name inside)
    taken := fun ref => (ages.taken ref).trans (tracked.taken ref)
    accounted := ages.accounted tracked.accounted }

structure EdgeAges (before after : EdgeQueue) : Prop where
  retired : before.state = .retired → after.state = .retired
  empty : before.state = .retired → before.queue = [] → after.queue = []
  taken : after.taken = before.taken
  accounted : before.Accounted → after.Accounted

theorem EdgeAges.refl (edge : EdgeQueue) : EdgeAges edge edge :=
  ⟨id, fun _ => id, rfl, id⟩

theorem EdgeAges.move (edge : EdgeQueue) (move : Move) : EdgeAges edge (move.apply edge) := by
  have drifted := move_drifted edge move false
  refine ⟨drifted.retired.mpr, ?_, drifted.taken, (move_accounted · move)⟩
  intro lapsed empty
  exact (drifted.settled lapsed).trans empty

theorem EdgeAges.markRetired (edge : EdgeQueue) (fast : Bool) :
    EdgeAges edge (edge.markRetired fast) where
  retired _ := by cases fast <;> rfl
  empty _ empty := by cases fast <;> simp [EdgeQueue.markRetired, empty]
  taken := by cases fast <;> rfl
  accounted good := good.markRetired fast

theorem ages_of_edges {before after : Channels}
    (each : ∀ ref, EdgeAges (before.edges ref) (after.edges ref)) : Ages before after where
  retired ref := (each ref).retired
  dead := by
    intro ref lapsed
    simp only [live, Bool.or_eq_false_iff, Bool.not_eq_false', List.isEmpty_iff,
      decide_eq_false_iff_not, not_not] at lapsed ⊢
    exact ⟨(each ref).empty lapsed.2 lapsed.1, (each ref).retired lapsed.2⟩
  taken ref := (each ref).taken
  accounted good ref := (each ref).accounted (good ref)

theorem Tracked.updated (tracked : Tracked run) {change : EdgeQueue → EdgeQueue}
    (ages : EdgeAges (run.binding.edges ref) (change (run.binding.edges ref))) :
    Tracked (updated ref change run) := by
  refine tracked.ages (ages_of_edges fun other => ?_)
  by_cases here : other = ref
  · subst here
    simpa using ages
  · simpa [update_of_ne here] using EdgeAges.refl _

variable {old : InputPortBinding}

section Rewire

variable {next : List InputPortBinding} {policy : SyncPolicy} {aligned : AlignedOptions}
  {state : Acquisition}

theorem rebind_ages (state : Acquisition) (next : List InputPortBinding) (policy : SyncPolicy)
    (aligned : AlignedOptions) :
    Ages state.toChannels (rebind next policy aligned state).toChannels := by
  refine ages_of_edges fun ref => ?_
  simp only [rebind]
  split
  · exact .markRetired _ true
  split
  · exact .markRetired _ false
  · exact .refl _

theorem vanished_retired (vanished : ref ∈ vanishedEdges state next) :
    ((rebind next policy aligned state).edges ref).state = .retired := by
  simp [rebind, vanished, EdgeQueue.markRetired]

theorem ended_retired (ended : ref ∈ endedEdges state next) :
    ((rebind next policy aligned state).edges ref).state = .retired := by
  by_cases vanished : ref ∈ vanishedEdges state next
  · exact vanished_retired vanished
  · simp [rebind, vanished, ended, EdgeQueue.markRetired]

@[simp]
theorem rebound_port (state : Acquisition) (binding : InputPortBinding) :
    (rebound state binding).port = binding.port := by
  unfold rebound
  split <;> rfl

@[simp]
theorem rebound_edge (state : Acquisition) (binding : InputPortBinding) :
    (rebound state binding).edge = binding.edge := by
  unfold rebound
  split <;> rfl

theorem rebound_edges (plain : binding.predecessors = []) (order : List ChannelRef)
    (known : ∀ old, findPort state.ports binding.port = some old → (bindingEdges old).Sublist order) :
    (bindingEdges (rebound state binding)).Sublist (order ++ added state binding) := by
  unfold bindingEdges at known ⊢
  unfold rebound added
  cases found : findPort state.ports binding.port with
  | none => simp [plain]
  | some old =>
    have before := known old found
    by_cases same : old.edge = binding.edge
    · simpa [same] using before
    · have fewer : (old.predecessors ++
          if (decide (old.edge = binding.edge) || hasEnded state old) = true then []
          else old.edge.toList).Sublist order := by
        refine List.Sublist.trans (List.Sublist.append (.refl _) ?_) before
        split
        · exact nil_sublist _
        · exact .refl _
      simpa [same] using fewer.append (List.Sublist.refl binding.edge.toList)

theorem rebound_keeps {old : InputPortBinding}
    (found : findPort state.ports binding.port = some old) {ref : ChannelRef}
    (fed : ref ∈ bindingEdges old) : ref ∈ bindingEdges (rebound state binding) ∨
      (old.edge = some ref ∧ (old.edge ≠ binding.edge && hasEnded state old) = true) := by
  unfold bindingEdges at fed ⊢
  simp only [rebound, found]
  rcases mem_append.mp fed with before | main
  · exact .inl (by simp [before])
  · have main : old.edge = some ref := by simpa using main
    by_cases same : old.edge = binding.edge
    · exact .inl (by simp [← same, main])
    · by_cases ended : hasEnded state old = true
      · exact .inr ⟨main, by simp [same, ended]⟩
      · rw [main] at same
        exact .inl (by simp [same, ended, main])

theorem chain_rewire (name : String) :
    chain (rewire next policy aligned run) name = chain run name ++
      ((next.flatMap fun binding => (added run.binding binding).map fun ref =>
        (binding.port, ref)).filter fun entry => entry.1 = name).map Prod.snd := by
  simp [chain, rewire]

theorem mem_chain_rewire (inside : ref ∈ chain (rewire next policy aligned run) name) :
    ref ∈ chain run name ∨ ∃ binding ∈ next, binding.port = name ∧
      ref ∈ added run.binding binding := by
  rw [mem_chain] at inside ⊢
  refine (mem_append.mp inside).imp_right fun new => ?_
  obtain ⟨binding, listed, member⟩ := mem_flatMap.mp new
  obtain ⟨other, isAdded, same⟩ := mem_map.mp member
  cases same
  exact ⟨binding, listed, rfl, isAdded⟩

theorem added_edge (isAdded : ref ∈ added state binding) : binding.edge = some ref := by
  unfold added at isAdded
  split at isAdded
  · simpa using isAdded
  split at isAdded
  · simp at isAdded
  · simpa using isAdded

theorem added_inChain (listed : binding ∈ next) :
    (chain run binding.port ++ added run.binding binding).Sublist
      (chain (rewire next policy aligned run) binding.port) := by
  rw [chain_rewire]
  refine List.Sublist.append (.refl _) ?_
  have part : ((added run.binding binding).map fun ref => (binding.port, ref)).Sublist
      (next.flatMap fun binding => (added run.binding binding).map fun ref =>
        (binding.port, ref)) :=
    sublist_flatten_of_mem (mem_map_of_mem listed)
  have kept := (part.filter fun entry => entry.1 = binding.port).map Prod.snd
  simpa [filter_map, comp_def] using kept

theorem Rewires.bound_apart (rewires : Rewires run next) (policy : SyncPolicy)
    (aligned : AlignedOptions) (apart : (run.bound.map Prod.snd).Nodup) :
    ((rewire next policy aligned run).bound.map Prod.snd).Nodup := by
  have same : (rewire next policy aligned run).bound.map Prod.snd =
      run.bound.map Prod.snd ++ next.flatMap (added run.binding) := by
    simp [rewire, map_flatMap]
  rw [same]
  refine List.Nodup.append apart rewires.apart ?_
  intro ref old new
  obtain ⟨binding, listed, inside⟩ := mem_flatMap.mp new
  exact rewires.fresh binding listed ref inside old

theorem Tracked.findPort (tracked : Tracked run) :
    findPort run.binding.ports name = some old ↔ old ∈ run.binding.ports ∧ old.port = name :=
  KeyedLists.lookup_eq_some tracked.names

theorem Tracked.left_retired (tracked : Tracked run) (listed : ref ∈ chain run name)
    (gone : ∀ binding ∈ next, binding.port = name →
      ref ∉ bindingEdges (rebound run.binding binding)) :
    ((rebind next policy aligned run.binding).edges ref).state = .retired := by
  by_cases fed : ∃ old ∈ run.binding.ports, old.port = name ∧ ref ∈ bindingEdges old
  · obtain ⟨old, bound, rfl, inside⟩ := fed
    cases found : InputBindings.findPort next old.port with
    | none =>
      -- The port vanished.
      apply vanished_retired
      refine mem_flatMap.mpr ⟨old, mem_filter.mpr ⟨bound, by simp [found]⟩, ?_⟩
      exact perm_append_comm.subset inside
    | some binding =>
      obtain ⟨listed, same⟩ := KeyedLists.lookup_some found
      have known : InputBindings.findPort run.binding.ports binding.port = some old :=
        tracked.findPort.mpr ⟨bound, same.symm⟩
      rcases rebound_keeps known inside with kept | ⟨main, ended⟩
      · exact absurd kept (gone binding listed same)
      · apply ended_retired
        exact mem_flatMap.mpr ⟨binding, listed, by simp only [known, ended]; simp [main]⟩
  · apply (rebind_ages run.binding next policy aligned).retired
    apply tracked.left name ref listed
    intro old bound same inside
    exact fed ⟨old, bound, same, inside⟩

theorem Tracked.rewire (tracked : Tracked run) (rewires : Rewires run next) :
    Tracked (rewire next policy aligned run) := by
  have aged := tracked.ages (rebind_ages run.binding next policy aligned)
  have apart := rewires.bound_apart policy aligned tracked.apart
  have grows : ∀ name, chain run name ⊆ chain (BindingRuns.rewire next policy aligned run) name :=
    fun name => by
      rw [chain_rewire]
      exact subset_append_left _ _
  -- The added edges come last, so nothing changes before an edge that was taken from.
  have before : ∀ {name first second}, second ∈ chain run name →
      Precedes (chain (BindingRuns.rewire next policy aligned run) name) first second →
      Precedes (chain run name) first second := by
    intro name first second inside precedes
    have distinct := chain_nodup apart name
    rw [chain_rewire] at precedes distinct
    exact precedes.left distinct inside
  refine { aged with names := ?_, apart := apart, inChain := ?_, left := ?_, listed := ?_,
                     passed := ?_, waited := ?_, forward := ?_ }
  · simpa [BindingRuns.rewire, rebind, comp_def] using rewires.names
  · intro later member
    obtain ⟨binding, listed, rfl⟩ := mem_map.mp member
    rw [rebound_port]
    refine List.Sublist.trans (rebound_edges (rewires.plain binding listed) _ ?_)
      (added_inChain listed)
    intro old found
    obtain ⟨bound, same⟩ := tracked.findPort.mp found
    rw [← same]
    exact tracked.inChain old bound
  · intro name ref inside gone
    have absent : ∀ binding ∈ next, binding.port = name →
        ref ∉ bindingEdges (rebound run.binding binding) := fun binding listed same =>
      gone _ (mem_map_of_mem listed) (by rw [rebound_port]; exact same)
    rcases mem_chain_rewire inside with old | ⟨binding, listed, same, isAdded⟩
    · exact tracked.left_retired old absent
    · refine absurd ?_ (absent binding listed same)
      simp [bindingEdges, added_edge isAdded]
  · exact fun delivery listed => grows _ (tracked.listed delivery listed)
  · intro delivery listed ref precedes later member name inside
    obtain ⟨binding, bound, rfl⟩ := mem_map.mp member
    rw [rebound_port] at name
    have older := before (tracked.listed delivery listed) precedes
    apply (rebind_ages run.binding next policy aligned).dead
    have known : ref ∉ added run.binding binding := fun isAdded =>
      rewires.fresh binding bound ref isAdded (mem_map_of_mem (mem_chain.mp older.first_mem))
    cases found : InputBindings.findPort run.binding.ports binding.port with
    | none =>
      have fed := (rebound_edges (rewires.plain binding bound) []
        (by simp [found])).subset inside
      exact absurd (by simpa using fed) known
    | some old =>
      obtain ⟨member, same⟩ := tracked.findPort.mp found
      have fed := (rebound_edges (rewires.plain binding bound) (bindingEdges old)
        (by simp [found])).subset inside
      exact tracked.passed delivery listed ref older old member (same.trans name)
        ((mem_append.mp fed).resolve_right known)
  · intro earlier delivery later split ref precedes
    have member : delivery ∈ run.log := split ▸ by simp
    exact tracked.waited earlier delivery later split ref
      (before (tracked.listed delivery member) precedes)
  · intro name
    refine (tracked.forward name).imp_of_mem ?_
    intro first second one two never precedes
    rw [portLog, mem_filter] at one
    have inside := tracked.listed first one.1
    rw [of_decide_eq_true one.2] at inside
    exact never (before inside precedes)

end Rewire

section Acquire

variable {start after : Acquisition} {later : InputPortBinding}

theorem begun_ready {binding : Acquisition} (distinct : Distinct binding)
    (script : List (List (ChannelRef × Move))) :
    Ready (begun script binding) (begun script binding) where
  bound := distinct
  gone := by
    intro port first later found foundLater ref listed
    cases found.symm.trans foundLater
    exact .inl listed
  retired := fun _ lapsed => .inl lapsed
  lasting := fun _ lapsed => lapsed
  dead := fun _ lapsed => lapsed
  alive := by simp [begun]
  waited := by simp [begun]
  passed := by simp [begun]
  forward := fun _ _ _ => by simp [begun, Forward]
  ports := forall₂_same.mpr fun _ _ => ⟨rfl, rfl, rfl, .refl _⟩
  policy := rfl
  aligned := rfl
  taken := by simp [begun, removedFrom]
  kept := fun still => ⟨still, by simp [begun, removedFrom]⟩
  calm := fun _ seen => ⟨rfl, seen⟩
  member := by simp [begun]
  accounted := fun good => good
  pending := Nat.le_refl _
  packets := rfl
  packetPorts := rfl
  events := rfl
  eventPorts := rfl
  late := by simp [begun]
  stale := by simp [begun]
  suits := by simp [begun, account]
  balanced := rfl
  distinct := distinct
  recorded := by simp [begun, account]

section Origin

variable (ready : Ready start after)
include ready

theorem removal_origin {removal : Removal} (listed : removal ∈ after.removed) :
    ∃ binding, start.ports[removal.port]? = some binding ∧
      removal.edge ∈ bindingEdges binding ∧ portName start removal.port = binding.port := by
  have inside := ready.member removal listed
  unfold edgesAt at inside
  cases found : start.ports[removal.port]? with
  | none => simp [found] at inside
  | some binding =>
    rw [found] at inside
    exact ⟨binding, rfl, inside, by simp [portName, found]⟩

theorem account_removed : (account after).map Prod.fst = after.removed :=
  map_fst_zip ready.balanced.ge

theorem account_fates : (account after).map Prod.snd = after.fates := map_snd_zip ready.balanced.le

theorem mem_account_removed {entry : Removal × Fate} (listed : entry ∈ account after) :
    entry.1 ∈ after.removed :=
  account_removed ready ▸ mem_map_of_mem listed

theorem samePort_origin (listed : later ∈ after.ports) : ∃ (port : Nat) (first : InputPortBinding),
      start.ports[port]? = some first ∧ after.ports[port]? = some later ∧ SamePort first later := by
  obtain ⟨port, below, rfl⟩ := mem_iff_getElem.mp listed
  have length := ready.ports.length_eq
  have found : start.ports[port]? = some (start.ports.get ⟨port, by omega⟩) := getElem?_eq_getElem _
  obtain ⟨other, foundLater, same⟩ := forall₂_getElem? ready.ports found
  have this : after.ports[port]? = some after.ports[port] := getElem?_eq_getElem below
  cases this.symm.trans foundLater
  exact ⟨port, _, found, this, same⟩

end Origin

theorem samePort_edges {first : InputPortBinding} (same : SamePort first later) :
    (bindingEdges later).Sublist (bindingEdges first) := by
  unfold bindingEdges
  rw [same.2.1]
  exact same.2.2.2.append (.refl _)

theorem position_unique (names : (start.ports.map port).Nodup) {one two : Nat}
    {first second : InputPortBinding} (foundFirst : start.ports[one]? = some first)
    (foundSecond : start.ports[two]? = some second) (same : first.port = second.port) :
    one = two := by
  have left : (start.ports.map port)[one]? = some first.port := by
    simp [foundFirst]
  have right : (start.ports.map port)[two]? = some first.port := by
    simp [foundSecond, same]
  exact (List.getElem?_inj (List.getElem?_eq_some_iff.mp left).1 names).mp
    (left.trans right.symm)

theorem Tracked.position (tracked : Tracked run) {port : Nat}
    (found : run.binding.ports[port]? = some binding) :
    (bindingEdges binding).Sublist (chain run binding.port) ∧ (chain run binding.port).Nodup ∧
      ∀ other ∈ run.binding.ports, other.port = binding.port → other = binding := by
  have listed := mem_of_getElem? found
  exact ⟨tracked.inChain binding listed, chain_nodup tracked.apart _,
    fun other member same => inj_on_of_nodup_map tracked.names member listed same⟩

/-- An older edge of the port was retired before the call, or still feeds the port
ahead of the edge that was taken from. -/
theorem Tracked.older (tracked : Tracked run) {port : Nat}
    (found : run.binding.ports[port]? = some binding) {edge : ChannelRef}
    (inside : edge ∈ bindingEdges binding) (precedes : Precedes (chain run binding.port) ref edge) :
    (run.binding.edges ref).state = .retired ∨ Precedes (bindingEdges binding) ref edge := by
  obtain ⟨sublist, distinct, unique⟩ := tracked.position found
  by_cases fed : ref ∈ bindingEdges binding
  · exact .inr (precedes.restrict sublist distinct fed inside)
  · refine .inl (tracked.left binding.port ref precedes.first_mem ?_)
    intro other member same
    rw [unique other member same]
    exact fed

section Recorded

variable {script : List (List (ChannelRef × Move))} (tracked : Tracked run)
  (ready : Ready (begun script run.binding) after)
include tracked ready

theorem Tracked.recorded_left (listed : ref ∈ chain run name)
    (gone : ∀ binding ∈ after.ports, binding.port = name → ref ∉ bindingEdges binding) :
    (after.edges ref).state = .retired := by
  by_cases fed : ∃ first ∈ run.binding.ports, first.port = name ∧ ref ∈ bindingEdges first
  · obtain ⟨first, member, rfl, inside⟩ := fed
    obtain ⟨port, found⟩ := mem_iff_getElem?.mp member
    obtain ⟨later, foundLater, same⟩ := forall₂_getElem? ready.ports found
    have absent := gone later (mem_of_getElem? foundLater) same.1
    unfold bindingEdges at inside absent
    rw [same.2.1, mem_append, not_or] at absent
    have predecessor := (mem_append.mp inside).resolve_right absent.2
    rcases ready.gone port first later found foundLater ref predecessor with kept | lapsed
    · exact absurd kept absent.1
    · exact lapsed.2
  · apply ready.lasting
    apply tracked.left name ref listed
    intro first member same inside
    exact fed ⟨first, member, same, inside⟩

theorem Tracked.recorded_passed {removal : Removal}
    (listed : removal ∈ after.removed) (member : later ∈ after.ports)
    (name : later.port = portName (begun script run.binding) removal.port)
    (precedes : Precedes (chain run later.port) ref removal.edge)
    (inside : ref ∈ bindingEdges later) : live after.toChannels ref = false := by
  obtain ⟨port, first, found, foundLater, same⟩ := samePort_origin ready member
  obtain ⟨binding, origin, fed, named⟩ := removal_origin ready listed
  have position : port = removal.port :=
    position_unique tracked.names found origin (same.1.symm.trans (name.trans named))
  subst position
  cases found.symm.trans origin
  obtain ⟨sublist, distinct, -⟩ := tracked.position found
  rw [same.1] at precedes
  have before := precedes.restrict sublist distinct ((samePort_edges same).subset inside) fed
  have predecessor := precedes_predecessor (ready.bound.binding found) before
  refine ready.passed removal listed first later found foundLater ref before ?_
  unfold bindingEdges at inside
  rw [same.2.1] at inside
  refine (mem_append.mp inside).resolve_right fun main => ?_
  exact disjoint_of_nodup_append (ready.bound.binding found) predecessor main

theorem Tracked.recorded_forward (name : String) : Forward (chain run name) Delivery.edge
      (((account after).map (delivery (begun script run.binding) after)).filter
        fun delivery => delivery.port = name) := by
  refine pairwise_filter.mpr (pairwise_map.mpr ?_)
  have removals := account_removed ready
  have pairs : after.removed.Pairwise fun earlier later =>
      portName (begun script run.binding) earlier.port = name →
      portName (begun script run.binding) later.port = name →
      ¬ Precedes (chain run name) later.edge earlier.edge := by
    refine pairwise_iff_forall_sublist.mpr ?_
    intro earlier later both oneName twoName precedes
    obtain ⟨binding, found, fed, named⟩ := removal_origin ready (both.subset mem_cons_self)
    obtain ⟨other, foundOther, fedOther, namedOther⟩ :=
      removal_origin ready (both.subset (mem_cons_of_mem earlier mem_cons_self))
    have position : later.port = earlier.port := position_unique tracked.names foundOther found
      (namedOther.symm.trans (twoName.trans (oneName.symm.trans named)))
    rw [position] at foundOther
    cases found.symm.trans foundOther
    obtain ⟨sublist, distinct, -⟩ := tracked.position found
    rw [← oneName, named] at precedes
    have order := ready.forward earlier.port binding found
    have kept : [earlier, later].Sublist
        (after.removed.filter fun removal => removal.port = earlier.port) := by
      have filtered := both.filter fun removal => removal.port = earlier.port
      simpa [position] using filtered
    exact (pairwise_iff_forall_sublist.mp order) kept
      (precedes.restrict sublist distinct fedOther fed)
  rw [← removals, pairwise_map] at pairs
  exact pairs.imp fun never one two => never (of_decide_eq_true one) (of_decide_eq_true two)

theorem Tracked.recorded_waited
    {earlier later : List Delivery} {taken : Delivery} (split : run.log ++ (account after).map
      (delivery (begun script run.binding) after) = earlier ++ taken :: later)
    (precedes : Precedes (chain run taken.port) ref taken.edge) :
    taken.retired ref = true ∨ ∃ other ∈ earlier, other.edge = ref ∧ other.packet.eos = true := by
  -- The delivery is one of this call, or an older one.
  have cases : (∃ front, earlier = run.log ++ front ∧ (account after).map
      (delivery (begun script run.binding) after) = front ++ taken :: later) ∨
      ∃ back, run.log = earlier ++ taken :: back := by
    rcases append_eq_append_iff.mp split with ⟨front, same, new⟩ | ⟨back, old, new⟩
    · exact .inl ⟨front, same, new⟩
    · cases back with
      | nil => exact .inl ⟨[], by simpa using old.symm, by simpa using new.symm⟩
      | cons head back =>
        obtain ⟨rfl, -⟩ := cons.inj new
        exact .inr ⟨back, old⟩
  rcases cases with ⟨front, rfl, new⟩ | ⟨back, old⟩
  · obtain ⟨before, rest, listed, rfl, tail⟩ := map_eq_append_iff.mp new
    obtain ⟨entry, others, rfl, rfl, -⟩ := map_eq_cons_iff.mp tail
    have removals := account_removed ready
    rw [listed, map_append] at removals
    have member : entry.1 ∈ after.removed := removals ▸ by simp
    obtain ⟨binding, found, fed, named⟩ := removal_origin ready member
    have order : Precedes (chain run binding.port) ref entry.1.edge := by
      rw [← named]
      exact precedes
    rcases tracked.older found fed order with lapsed | ahead
    · exact .inl (decide_eq_true lapsed)
    · rcases ready.waited _ entry.1 _ removals.symm binding found ref ahead with lapsed | marked
      · exact .inl (decide_eq_true lapsed)
      · obtain ⟨removal, inFront, same, marks⟩ := marked
        obtain ⟨first, isBefore, rfl⟩ := mem_map.mp inFront
        exact .inr ⟨_, mem_append_right _ (mem_map_of_mem isBefore), same, marks⟩
  · exact tracked.waited earlier taken back old ref precedes

omit tracked in
theorem Tracked.recorded_names : after.ports.map port = run.binding.ports.map port := by
  have related := ready.ports
  simp only [begun] at related
  generalize run.binding.ports = first at related
  generalize after.ports = later at related
  induction related with
  | nil => rfl
  | cons head _ step => simp [head.1, step]

/-- What was delivered before this call is not behind what it delivers. -/
theorem Tracked.recorded_behind {first : Delivery} {entry : Removal × Fate}
    (old : first ∈ run.log) (listed : entry ∈ account after)
    (name : portName (begun script run.binding) entry.1.port = first.port) :
    ¬ Precedes (chain run first.port) entry.1.edge first.edge := by
  intro precedes
  have removed := mem_account_removed ready listed
  obtain ⟨binding, found, fed, named⟩ := removal_origin ready removed
  have dead := tracked.passed first old entry.1.edge precedes binding (mem_of_getElem? found)
    (named.symm.trans name) fed
  exact absurd ((ready.alive entry.1 removed).symm.trans dead) (by simp)

theorem Tracked.recorded : Tracked (recorded (begun script run.binding) after run) := by
  refine ⟨Tracked.recorded_names ready ▸ tracked.names, tracked.apart, ?_, ?_, ?_, ?_, ?_, ?_, ?_,
    ready.accounted tracked.accounted, ?_, ?_, ?_⟩
  · intro later member
    obtain ⟨port, first, found, -, same⟩ := samePort_origin ready member
    refine (samePort_edges same).trans ?_
    have known := tracked.inChain first (mem_of_getElem? found)
    rwa [same.1]
  · intro name ref listed gone
    have left := tracked.recorded_left ready listed gone
    exact left
  · intro delivery member
    rcases mem_append.mp member with old | new
    · exact tracked.listed delivery old
    · obtain ⟨entry, listed, rfl⟩ := mem_map.mp new
      obtain ⟨binding, found, fed, named⟩ := removal_origin ready (mem_account_removed ready listed)
      have known := (tracked.position found).1.subset fed
      rw [← named] at known
      exact known
  · intro delivery member ref precedes later bound name inside
    rcases mem_append.mp member with old | new
    · obtain ⟨port, first, found, -, same⟩ := samePort_origin ready bound
      apply ready.dead
      exact tracked.passed delivery old ref precedes first (mem_of_getElem? found)
        (same.1.symm.trans name) ((samePort_edges same).subset inside)
    · obtain ⟨entry, listed, rfl⟩ := mem_map.mp new
      rw [← name] at precedes
      have removed := mem_account_removed ready listed
      have passed := tracked.recorded_passed ready removed bound name precedes
      exact passed inside
  · intro earlier delivery later split ref precedes
    exact tracked.recorded_waited ready split precedes
  · intro name
    have old := tracked.forward name
    have new := tracked.recorded_forward ready name
    unfold portLog BindingRuns.recorded
    rw [filter_append]
    refine pairwise_append.mpr ⟨old, new, ?_⟩
    intro first one second two precedes
    rw [mem_filter] at one two
    obtain ⟨entry, listed, rfl⟩ := mem_map.mp two.1
    obtain rfl : first.port = name := of_decide_eq_true one.2
    exact tracked.recorded_behind ready one.1 listed (of_decide_eq_true two.2) precedes
  · intro ref
    have taken := ready.taken ref
    simp only [BindingRuns.recorded, begun, filter_append, map_append]
      at taken ⊢
    rw [taken, tracked.taken ref, removedFrom, ← account_removed ready, filter_map,
      filter_map, map_map, map_map]
    rfl
  · intro delivery member calm
    rcases mem_append.mp member with old | new
    · exact tracked.suits delivery old calm
    · obtain ⟨entry, listed, rfl⟩ := mem_map.mp new
      exact ready.suits calm entry listed
  · have late := ready.late
    have fates := account_fates ready
    simp only [BindingRuns.recorded, begun]
      at late ⊢
    rw [late, tracked.late, ← fates]
    simp [comp_def, delivery]
  · have stale := ready.stale
    have fates := account_fates ready
    simp only [BindingRuns.recorded, begun]
      at stale ⊢
    rw [stale, tracked.stale, ← fates]
    simp [comp_def, delivery]

end Recorded

end Acquire

theorem Created.tracked (created : Created run) : Tracked run := by
  have edges : ∀ binding ∈ run.binding.ports, bindingEdges binding = binding.edge.toList :=
    fun binding listed => by simp [bindingEdges, created.plain binding listed]
  have fed : ∀ {name ref}, ref ∈ chain run name →
      ∃ binding ∈ run.binding.ports, binding.port = name ∧ ref ∈ bindingEdges binding := by
    intro name ref inside
    rw [mem_chain, created.bound] at inside
    obtain ⟨binding, listed, member⟩ := mem_flatMap.mp inside
    obtain ⟨other, main, same⟩ := mem_map.mp member
    cases same
    exact ⟨binding, listed, rfl, edges binding listed ▸ main⟩
  refine ⟨created.names, created.apart, ?_, ?_, ?_, ?_, ?_, ?_, ?_, ?_, ?_, ?_, ?_⟩
  · intro binding listed
    rw [edges binding listed]
    cases main : binding.edge with
    | none => exact nil_sublist _
    | some ref =>
      refine singleton_sublist.mpr (mem_chain.mpr ?_)
      rw [created.bound]
      exact mem_flatMap.mpr ⟨binding, listed, by simp [main]⟩
  · intro name ref inside gone
    obtain ⟨binding, listed, same, main⟩ := fed inside
    exact absurd main (gone binding listed same)
  · simp [created.log]
  · simp [created.log]
  · simp [created.log]
  · intro name
    simp [portLog, created.log, Forward]
  · intro ref
    obtain ⟨policy, capacity, same⟩ := created.edges ref
    simp [created.log, same]
  · intro ref
    obtain ⟨policy, capacity, same⟩ := created.edges ref
    rw [same]
    exact EdgeQueue.accounted_start policy capacity
  · simp [created.log]
  · simp [created.log, created.counters.1]
  · simp [created.log, created.counters.2]

theorem Tracked.step {before after : BindingRun} (tracked : Tracked before)
    (step : Step before after) : Tracked after := by
  cases step with
  | move ref move => exact tracked.updated (.move _ move)
  | retire ref fast => exact tracked.updated (.markRetired _ fast)
  | rebind policy aligned rewires => exact tracked.rewire rewires
  | @acquire script bound result last enough returns =>
    have spec := tryAcquire_ensures (begun_ready tracked.distinct script) rfl enough
    exact tracked.recorded (ensures_returns spec returns).1

theorem reachable_tracked (reached : Reachable Created Step run) : Tracked run :=
  reachable_invariant Tracked (fun _ created => created.tracked)
    (fun _ _ _ tracked step => tracked.step step) reached

end GraphEngine.BindingRuns
