import GraphEngine.AcquireBooks

/-!
`SkimHead` and `Take`. Skimming a port terminates, keeps the books, and leaves
the other ports alone. The packet it returns is a data packet at the head of the
port's active edge; taking it later gives this very packet unless an eviction
came in between.
-/

namespace GraphEngine.HeadSkims

open NodeRuntimes EdgeQueues StatePrograms InputBindings AcquireBooks Function Option
open List hiding take

/-- A consumed marker has ended its port, or retired the predecessor it came from. -/
def Recorded (start now : Acquisition) (removal : Removal) : Prop :=
  (start.ports[removal.port]?.bind InputPortBinding.edge = some removal.edge ∧
      portName start removal.port ∈ now.eosPorts) ∨
    ((now.edges removal.edge).state = .retired ∧ removal.edge ∉ edgesAt now removal.port)

structure Settled (start now : Acquisition) : Prop extends Books start now where
  balanced : now.fates.length = now.removed.length
  distinct : Distinct now

structure Ready (start now : Acquisition) : Prop extends Settled start now where
  recorded : ∀ entry ∈ account now, entry.2 = .marker → Recorded start now entry.1

variable {start before now after : Acquisition} {port : Nat} {ref : ChannelRef}
  {packet : Packet} {rest : List Packet}

theorem Recorded.mono {removal : Removal} (recorded : Recorded start before removal)
    (retired : ∀ ref, (before.edges ref).state = .retired → (after.edges ref).state = .retired)
    (shrinks : ∀ port, edgesAt after port ⊆ edgesAt before port)
    (ended : before.eosPorts ⊆ after.eosPorts) : Recorded start after removal := by
  rcases recorded with ⟨main, listed⟩ | ⟨lapsed, gone⟩
  · exact .inl ⟨main, ended listed⟩
  · exact .inr ⟨retired _ lapsed, fun inside => gone (shrinks _ inside)⟩

theorem Recorded.adrift {removal : Removal} (recorded : Recorded start now removal)
    (adrift : Adrift now after) : Recorded start after removal := by
  obtain ⟨channels, rfl, drift⟩ := adrift
  exact recorded.mono (fun ref lapsed => (drift.edge ref).retired.mpr lapsed)
    (fun _ => List.Subset.refl _) (List.Subset.refl _)

variable (state : Acquisition)

theorem edgesAt_subset (port : Nat) : (edgesAt state port).Sublist (allEdges state) := by
  unfold edgesAt allEdges
  cases found : state.ports[port]? with
  | none => simp
  | some binding =>
    have member : bindingEdges binding ∈ state.ports.map bindingEdges :=
      mem_map_of_mem (mem_of_getElem? found)
    exact sublist_flatten_of_mem member

theorem Ready.adrift (ready : Ready start now) (adrift : Adrift now after) : Ready start after := by
  have ledger := ready.toLedger.adrift adrift
  have records := ready.toRecords.adrift adrift
  obtain ⟨channels, rfl, drift⟩ := adrift
  refine { ledger, records with
    balanced := ready.balanced, distinct := ready.distinct, recorded := ?_ }
  exact fun entry listed marks => (ready.recorded entry listed marks).adrift ⟨channels, rfl, drift⟩

theorem adrift_weight (adrift : Adrift before after) (distinct : Distinct before) :
    weight after ≤ weight before := by
  obtain ⟨channels, rfl, drift⟩ := adrift
  exact drift.load (allEdges before) distinct

theorem remove_weight (inside : ref ∈ edgesAt now port)
    (front : (now.edges ref).queue = packet :: rest) :
    weight (remove port ref packet now) < weight now := by
  have member := (edgesAt_subset now port).subset inside
  unfold weight load
  refine Nat.add_lt_add_left (sum_lt_sum _ _ ?_ ⟨ref, member, ?_⟩) _
  · intro other _
    by_cases here : other = ref
    · subst here
      simp [remove, EdgeQueue.pop, front]
    · simp [remove, here]
  · simp [remove, EdgeQueue.pop, front]

structure Reaches (start before after : Acquisition) (port : Nat) : Prop where
  ready : Ready start after
  elsewhere : Elsewhere before after port
  weight : weight after ≤ weight before
  packets : after.batch.packets = before.batch.packets

theorem Reaches.trans {first second third : Acquisition} (left : Reaches start first second port)
    (right : Reaches start second third port) : Reaches start first third port where
  ready := right.ready
  elsewhere := left.elsewhere.trans right.elsewhere
  weight := right.weight.trans left.weight
  packets := right.packets.trans left.packets

theorem Ready.reaches_adrift (ready : Ready start before) (adrift : Adrift before after)
    (port : Nat) : Reaches start before after port where
  ready := ready.adrift adrift
  elsewhere := adrift.elsewhere port
  weight := adrift_weight adrift ready.distinct
  packets := by
    obtain ⟨channels, rfl, -⟩ := adrift
    rfl

theorem Ledger.look (ledger : Ledger start now) (ref : ChannelRef) :
    Ledger start (look ref now) := by
  refine { ledger with calm := ?_ }
  intro still seen
  obtain ⟨same, unseen⟩ := ledger.calm still seen
  refine ⟨same, fun other => ?_⟩
  by_cases here : other = ref
  · simp [InputBindings.look, here]
  · simp [InputBindings.look, here, unseen other]

theorem look_elsewhere (inside : ref ∈ edgesAt now port) : Elsewhere now (look ref now) port := by
  refine ⟨rfl, fun _ _ => rfl, .refl _, ?_⟩
  intro other outside
  have apart : other ≠ ref := fun same => outside (same ▸ inside)
  simpa [look, update_of_ne apart] using Drifted.refl _ _

theorem Ready.reaches_look (ready : Ready start now) (inside : ref ∈ edgesAt now port) :
    Reaches start now (look ref now) port where
  ready := { Ledger.look ready.toLedger ref, ready with }
  elsewhere := look_elsewhere inside
  weight := Nat.le_refl _
  packets := rfl

section Entered

variable (port packet) (fate : Fate) (state : Acquisition)

@[simp]
theorem entered_toChannels : (entered port packet fate state).toChannels = state.toChannels := by
  cases fate <;> rfl

@[simp]
theorem entered_ports : (entered port packet fate state).ports = state.ports := by
  cases fate <;> rfl

@[simp]
theorem entered_removed : (entered port packet fate state).removed = state.removed := by
  cases fate <;> rfl

@[simp]
theorem entered_eosPorts : (entered port packet fate state).eosPorts = state.eosPorts := by
  cases fate <;> rfl

@[simp]
theorem entered_raced : (entered port packet fate state).raced = state.raced := by
  cases fate <;> rfl

end Entered

theorem Ledger.enter (ledger : Ledger start now) (port : Nat) (packet : Packet) (fate : Fate) :
    Ledger start (entered port packet fate now) := by
  cases fate <;> exact { ledger with }

def took (port : Nat) (ref : ChannelRef) (packet : Packet) (fate : Fate) (state : Acquisition) :
    Acquisition :=
  entered port packet fate (remove port ref packet state)

theorem account_took (balanced : now.fates.length = now.removed.length) (port : Nat)
    (ref : ChannelRef) (packet : Packet) (fate : Fate) :
    account (took port ref packet fate now) = account now ++ [(⟨port, ref, packet⟩, fate)] := by
  simp only [account, took, entered_fates, entered_removed]
  exact zip_append balanced.symm

theorem Settled.took (settled : Settled start now) (served : activeEdge now port = some ref)
    (front : (now.edges ref).queue = packet :: rest) (fate : Fate)
    (suits : (remove port ref packet now).raced = false → Suits packet fate) :
    Settled start (took port ref packet fate now) := by
  have ledger := settled.toLedger.remove served front
  have records := settled.toRecords.remove port ref packet
  have pending : (remove port ref packet now).removed[(remove port ref packet now).fates.length]?
      = some ⟨port, ref, packet⟩ := by
    simp [remove, settled.balanced]
  have balanced := settled.balanced
  have entered := records.enter ledger pending fate suits
  have booked := Ledger.enter ledger port packet fate
  refine { booked, entered with balanced := ?_, distinct := ?_ }
  · simp only [HeadSkims.took, entered_fates, entered_removed, remove, length_append,
      length_singleton, balanced]
  · have same := settled.distinct
    unfold Distinct allEdges at same ⊢
    rwa [HeadSkims.took, entered_ports]

theorem took_elsewhere (inside : ref ∈ edgesAt now port) (packet : Packet) (fate : Fate) :
    Elsewhere now (took port ref packet fate now) port := by
  refine ⟨?_, ?_, ?_, ?_⟩
  · simp [took, remove]
  · intro other _
    simp [took, remove]
  · simp only [took, edgesAt, entered_ports]
    exact .refl _
  · intro other outside
    have apart : other ≠ ref := fun same => outside (same ▸ inside)
    simpa [took, remove, update_of_ne apart] using Drifted.refl _ _

theorem took_weight (inside : ref ∈ edgesAt now port)
    (front : (now.edges ref).queue = packet :: rest) (fate : Fate) :
    weight (took port ref packet fate now) < weight now := by
  have less := remove_weight inside front
  simpa [weight, took, allEdges] using less

theorem took_keeps (removal : Removal) (recorded : Recorded start now removal) (port : Nat)
    (ref : ChannelRef) (packet : Packet) (fate : Fate) :
    Recorded start (took port ref packet fate now) removal := by
  apply recorded.mono
  · intro other lapsed
    rwa [took, entered_toChannels, remove_state]
  · intro other
    simp [took, edgesAt, remove]
  · simp [took, remove]

section Taken

variable {middle : Acquisition} {taken : Packet} (ready : Ready start now)
  (adrift : Adrift now middle) (served : activeEdge middle port = some ref)
  (front : (middle.edges ref).queue = taken :: rest) (fate : Fate) (other : fate ≠ .marker)
  (same : (remove port ref taken middle).raced = false → taken = packet) (suits : Suits packet fate)
include ready adrift served front other same suits

theorem Ready.settles : Ready start (took port ref taken fate middle) := by
  have moved := ready.adrift adrift
  have suited : (remove port ref taken middle).raced = false → Suits taken fate := by
    intro calm
    rw [same calm]
    exact suits
  refine { moved.toSettled.took served front fate suited with recorded := ?_ }
  rw [account_took moved.balanced]
  refine forall_mem_append.mpr ⟨?_, forall_mem_singleton.mpr fun marks => absurd marks other⟩
  exact fun entry old marks => took_keeps entry.1 (moved.recorded entry old marks) port ref taken fate

theorem Ready.takes (undelivered : fate ≠ .delivered) :
    Reaches start now (took port ref taken fate middle) port ∧
      weight (took port ref taken fate middle) < weight now := by
  have inside := activeEdge_mem served
  have moved := ready.reaches_adrift adrift port
  have less := (took_weight inside front fate).trans_le moved.weight
  refine ⟨⟨ready.settles adrift served front fate other same suits,
    moved.elsewhere.trans (took_elsewhere inside taken fate), less.le, ?_⟩, less⟩
  rw [← moved.packets]
  cases fate <;> first | rfl | exact absurd rfl undelivered

end Taken

def mainEdge (state : Acquisition) (port : Nat) : Option ChannelRef :=
  state.ports[port]?.bind InputPortBinding.edge

theorem Ledger.mainEdge (ledger : Ledger start now) (port : Nat) :
    mainEdge now port = mainEdge start port := by
  unfold HeadSkims.mainEdge
  cases found : start.ports[port]? with
  | none => rw [forall₂_absent ledger.ports found]
  | some binding =>
    obtain ⟨later, foundLater, -, edge, -, -⟩ := forall₂_getElem? ledger.ports found
    rw [foundLater]
    exact edge

def ended (port : Nat) (state : Acquisition) : Acquisition :=
  { state with eosPorts := state.eosPorts.insert (portName state port) }

theorem Ready.took_marker (ready : Ready start now) (served : activeEdge now port = some ref)
    (front : (now.edges ref).queue = packet :: rest) (marks : packet.eos = true)
    (main : mainEdge now port = some ref) :
    Reaches start now (ended port (took port ref packet .marker now)) port ∧
      weight (ended port (took port ref packet .marker now)) < weight now := by
  have inside := activeEdge_mem served
  have less := took_weight inside front .marker
  have settled := ready.toSettled.took served front .marker fun _ => marks
  refine ⟨⟨{ settled with recorded := ?_ }, { took_elsewhere inside packet .marker with },
    less.le, rfl⟩, less⟩
  have listed : account (ended port (took port ref packet .marker now)) =
      account now ++ [(⟨port, ref, packet⟩, .marker)] :=
    account_took ready.balanced port ref packet .marker
  rw [listed]
  intro entry member kind
  rcases mem_append.mp member with old | new
  · have kept := took_keeps entry.1 (ready.recorded entry old kind) port ref packet .marker
    exact kept.mono (fun _ lapsed => lapsed) (fun _ => List.Subset.refl _)
      (fun _ listed => mem_insert_of_mem listed)
  · rw [mem_singleton.mp new]
    refine .inl ⟨(Ledger.mainEdge ready.toLedger port).symm.trans main, ?_⟩
    have name := Ledger.portName settled.toLedger port
    simp only [ended, name]
    exact mem_insert_self

def forgotten (port : Nat) (ref : ChannelRef) (state : Acquisition) : Acquisition :=
  { state with ports := state.ports.modify port fun binding =>
    { binding with predecessors := binding.predecessors.filter fun other => other ≠ ref } }

def retired (ref : ChannelRef) (state : Acquisition) : Acquisition :=
  { state with
    edges := update state.edges ref ((state.edges ref).markRetired false) }

theorem samePort_trans {first second third : InputPortBinding} (left : SamePort first second)
    (right : SamePort second third) : SamePort first third :=
  ⟨right.1.trans left.1, right.2.1.trans left.2.1, right.2.2.1.trans left.2.2.1,
    right.2.2.2.trans left.2.2.2⟩

variable {change : InputPortBinding → InputPortBinding}

theorem samePorts_modify (same : ∀ binding, SamePort binding (change binding))
    {first second : List InputPortBinding} (related : List.Forall₂ SamePort first second)
    (port : Nat) : List.Forall₂ SamePort first (second.modify port change) := by
  induction related generalizing port with
  | nil => cases port <;> exact .nil
  | cons head rest step =>
    cases port with
    | zero => exact .cons (samePort_trans head (same _)) rest
    | succ port => exact .cons head (step port)

theorem flatMap_modify_sublist
    (fewer : ∀ binding, (bindingEdges (change binding)).Sublist (bindingEdges binding))
    (ports : List InputPortBinding) (port : Nat) :
    ((ports.modify port change).flatMap bindingEdges).Sublist (ports.flatMap bindingEdges) := by
  induction ports generalizing port with
  | nil => cases port <;> simp
  | cons first rest step =>
    cases port with
    | zero => exact (fewer first).append (.refl _)
    | succ port => exact (List.Sublist.refl _).append (step port)

theorem forget_fewer (ref : ChannelRef) (binding : InputPortBinding) : (bindingEdges { binding with
      predecessors := binding.predecessors.filter fun other => other ≠ ref }).Sublist
      (bindingEdges binding) :=
  filter_sublist.append (.refl _)

theorem forgotten_port (port : Nat) (ref : ChannelRef) (other : Nat) :
    (edgesAt (forgotten port ref state) other).Sublist (edgesAt state other) := by
  unfold edgesAt forgotten
  rw [getElem?_modify]
  cases found : state.ports[other]? with
  | none => simp
  | some binding =>
    by_cases here : port = other
    · simpa [here] using forget_fewer ref binding
    · simp [here]

theorem forgotten_gone (port : Nat) (ref : ChannelRef)
    (apart : mainEdge state port ≠ some ref) : ref ∉ edgesAt (forgotten port ref state) port := by
  unfold edgesAt forgotten
  unfold mainEdge at apart
  rw [getElem?_modify]
  cases found : state.ports[port]? with
  | none => simp
  | some binding =>
    simp only [found] at apart
    simpa [bindingEdges] using apart

theorem forgotten_weight (port : Nat) (ref : ChannelRef) :
    weight (forgotten port ref state) ≤ weight state := by
  unfold weight load
  refine Nat.add_le_add_left ?_ _
  have fewer := flatMap_modify_sublist (forget_fewer ref) state.ports port
  exact (fewer.map _).sum_le_sum (by simp)

theorem forgotten_found {state : Acquisition} {other : Nat} {later : InputPortBinding}
    (found : (forgotten port ref state).ports[other]? = some later) :
    ∃ binding, state.ports[other]? = some binding ∧ later.predecessors ⊆ binding.predecessors ∧
      ∀ each ∈ binding.predecessors, each ≠ ref → each ∈ later.predecessors := by
  simp only [forgotten, getElem?_modify] at found
  obtain ⟨binding, here, rfl⟩ := map_eq_some_iff.mp found
  refine ⟨binding, here, ?_⟩
  split
  · exact ⟨filter_sublist.subset, fun each listed apart =>
      mem_filter.mpr ⟨listed, by simpa using apart⟩⟩
  · exact ⟨List.Subset.refl _, fun each listed _ => listed⟩

theorem inOrder_forgotten (order : InOrder start now) (port : Nat) (marked : Marked now.removed ref)
    (lapsed : (now.edges ref).state = .retired) : InOrder start (forgotten port ref now) := by
  refine { order with gone := ?_, passed := ?_ }
  · intro other first later found foundLater each listed
    obtain ⟨binding, here, -, kept⟩ := forgotten_found foundLater
    by_cases same : each = ref
    · exact .inr ⟨same ▸ marked, same ▸ lapsed⟩
    · exact (order.gone other first binding found here each listed).imp_left
        fun before => kept each before same
  · intro removal listed first later found foundLater each precedes member
    obtain ⟨binding, here, fewer, -⟩ := forgotten_found foundLater
    exact order.passed removal listed first binding found here each precedes (fewer member)

theorem Settled.forgotten (settled : Settled start now) (port : Nat) (ref : ChannelRef)
    (marked : Marked now.removed ref) (lapsed : (now.edges ref).state = .retired) :
    Settled start (forgotten port ref now) := by
  have same : ∀ binding : InputPortBinding, SamePort binding
      { binding with predecessors := binding.predecessors.filter fun other => other ≠ ref } :=
    fun binding => ⟨rfl, rfl, rfl, filter_sublist⟩
  have order := inOrder_forgotten settled.toInOrder port marked lapsed
  exact { order, settled with
    ports := samePorts_modify same settled.ports port
    distinct := (flatMap_modify_sublist (forget_fewer ref) now.ports port).nodup
      settled.distinct }

theorem retired_edge (ref other : ChannelRef) :
    ((retired ref state).edges other).taken = (state.edges other).taken ∧
      ((retired ref state).edges other).queue = (state.edges other).queue ∧
      ((state.edges other).state = .retired →
        ((retired ref state).edges other).state = .retired) := by
  by_cases here : other = ref
  · subst here
    simp [retired, EdgeQueue.markRetired]
  · simp [retired, update_of_ne here]

theorem inOrder_retired (order : InOrder start now) (marked : Marked now.removed ref) :
    InOrder start (retired ref now) := by
  have stays : ∀ other, live now.toChannels other = false →
      live (retired ref now).toChannels other = false := by
    intro other dead
    obtain ⟨-, queue, keeps⟩ := retired_edge now ref other
    have lapsed := keeps (dead_retired dead)
    simp only [live, Bool.or_eq_false_iff, decide_eq_false_iff_not, not_not] at dead ⊢
    exact ⟨queue ▸ dead.1, lapsed⟩
  refine { order with gone := ?_, retired := ?_, lasting := ?_, dead := ?_, passed := ?_ }
  · intro port first later found foundLater each listed
    refine (order.gone port first later found foundLater each listed).imp_right ?_
    exact fun lapsed => ⟨lapsed.1, (retired_edge now ref each).2.2 lapsed.2⟩
  · intro other lapsed
    by_cases here : other = ref
    · exact .inr (here ▸ marked)
    · apply order.retired other
      simpa [retired, update_of_ne here] using lapsed
  · exact fun other lapsed => (retired_edge now ref other).2.2 (order.lasting other lapsed)
  · exact fun other lapsed => stays other (order.dead other lapsed)
  · intro removal listed first later found foundLater each precedes member
    exact stays each
      (order.passed removal listed first later found foundLater each precedes member)

theorem Settled.retires (settled : Settled start now) (ref : ChannelRef)
    (marked : Marked now.removed ref) : Settled start (retired ref now) := by
  have order := inOrder_retired settled.toInOrder marked
  refine { order, settled with taken := ?_, kept := ?_, accounted := ?_ }
  · intro other
    exact (retired_edge now ref other).1.trans (settled.taken other)
  · intro still
    obtain ⟨quiet, queues⟩ := settled.kept still
    refine ⟨quiet, fun other => ?_⟩
    rw [(retired_edge now ref other).2.1]
    exact queues other
  · intro good other
    by_cases here : other = ref
    · subst here
      simpa [retired] using (settled.accounted good other).markRetired false
    · simpa [retired, update_of_ne here] using settled.accounted good other

theorem retired_weight (port : Nat) (ref : ChannelRef) :
    weight (forgotten port ref (retired ref state)) ≤ weight state := by
  refine (forgotten_weight _ port ref).trans (Nat.le_of_eq ?_)
  unfold weight load
  congr 2
  apply map_congr_left
  intro other _
  rw [(retired_edge state ref other).2.1]

theorem retired_elsewhere {state : Acquisition} (inside : ref ∈ edgesAt state port) :
    Elsewhere state (forgotten port ref (retired ref state)) port where
  length := by simp [forgotten, retired]
  ports := by
    intro other apart
    have differs : port ≠ other := fun same => apart same.symm
    simp [forgotten, retired, differs]
  own := forgotten_port (retired ref state) port ref port
  edges := by
    intro other outside
    have apart : other ≠ ref := fun same => outside (same ▸ inside)
    simpa [forgotten, retired, update_of_ne apart] using Drifted.refl _ _

theorem Ready.took_last (ready : Ready start now) (served : activeEdge now port = some ref)
    (front : (now.edges ref).queue = packet :: rest) (marks : packet.eos = true)
    (predecessor : mainEdge now port ≠ some ref) {later : Acquisition}
    (adrift : Adrift (took port ref packet .marker now) later) :
    Reaches start now (forgotten port ref (retired ref later)) port ∧
      weight (forgotten port ref (retired ref later)) < weight now := by
  have inside := activeEdge_mem served
  have settled := ready.toSettled.took served front .marker fun _ => marks
  have ledger := settled.toLedger.adrift adrift
  have records := settled.toRecords.adrift adrift
  have less := (adrift_weight adrift settled.distinct).trans_lt (took_weight inside front .marker)
  have lighter := (retired_weight later port ref).trans_lt less
  have elsewhere := (took_elsewhere inside packet .marker).trans (adrift.elsewhere port)
  obtain ⟨channels, rfl, drift⟩ := adrift
  have bound : ref ∈ edgesAt (took port ref packet .marker now) port := inside
  have moved : Settled start
      { took port ref packet .marker now with toChannels := channels } :=
    { ledger, records with balanced := settled.balanced, distinct := settled.distinct }
  have marked : Marked ({ took port ref packet .marker now with
      toChannels := channels } : Acquisition).removed ref :=
    ⟨⟨port, ref, packet⟩, by simp [took, remove], rfl, marks⟩
  have final := (moved.retires ref marked).forgotten port ref marked
    (by simp [retired, EdgeQueue.markRetired])
  refine ⟨⟨{ final with recorded := ?_ }, elsewhere.trans (retired_elsewhere bound),
    lighter.le, rfl⟩, lighter⟩
  intro entry member kind
  have listed : entry ∈ account now ++ [(⟨port, ref, packet⟩, .marker)] := by
    rw [← account_took ready.balanced port ref packet .marker]
    exact member
  rcases mem_append.mp listed with old | new
  · have kept := took_keeps entry.1 (ready.recorded entry old kind) port ref packet .marker
    refine kept.mono ?_ ?_ (List.Subset.refl _)
    · intro other lapsed
      exact (retired_edge _ ref other).2.2 ((drift.edge other).retired.mpr lapsed)
    · exact fun other => (forgotten_port (retired ref _) port ref other).subset
  · rw [mem_singleton.mp new]
    exact .inr ⟨by simp [forgotten, retired, EdgeQueue.markRetired],
      forgotten_gone _ port ref predecessor⟩

theorem takeMarker_ensures (ready : Ready start now) (served : activeEdge now port = some ref)
    (front : (now.edges ref).queue.head? = some packet) (marks : packet.eos = true) :
    Ensures (takeMarker port ref (isPredecessor now port ref)) now fun _ after =>
      Reaches start now after port ∧ weight after < weight now := by
  have filled : (now.edges ref).queue ≠ [] := by
    intro empty
    simp [empty] at front
  unfold takeMarker
  refine ensures_then (pop_ensures filled) ?_
  rintro found after ⟨middle, taken, rest, adrift, split, rfl, rfl⟩
  have moved := ready.reaches_adrift adrift port
  have still := (adrift.activeEdge port).trans served
  obtain ⟨channels, rfl, drift⟩ := adrift
  have same : taken = packet := by
    have stays := (drift.edge ref).marker packet front marks
    rw [split] at stays
    exact some_inj.mp stays
  subst same
  apply ensures_modify_bind
  by_cases predecessor : mainEdge now port = some ref
  · have own : isPredecessor now port ref = false := by
      simpa [isPredecessor, mainEdge] using predecessor
    simp only [own]
    apply ensures_modify
    have step := moved.ready.took_marker still split marks predecessor
    exact ⟨moved.trans step.1, step.2.trans_le moved.weight⟩
  · have other : isPredecessor now port ref = true := by
      simpa [isPredecessor, mainEdge] using predecessor
    simp only [other]
    apply ensures_bind
    unfold retire
    apply ensures_modify_bind
    apply ensures_modify
    apply ensures_modify
    have step := moved.ready.took_last still split marks predecessor (interfere_adrift _)
    exact ⟨moved.trans step.1, step.2.trans_le moved.weight⟩

theorem pop_fresh (served : activeEdge now port = some ref) (filled : (now.edges ref).queue ≠ [])
    (head : now.unseen ref = true ∨ (now.edges ref).queue.head? = some packet) :
    Ensures (pop port ref) now fun found after =>
      ∃ middle taken rest, Adrift now middle ∧ activeEdge middle port = some ref ∧
        (middle.edges ref).queue = taken :: rest ∧ found = some taken ∧
        after = remove port ref taken middle ∧
        ((remove port ref taken middle).raced = false → taken = packet) := by
  refine ensures_mono (pop_ensures filled) ?_
  rintro found after ⟨middle, taken, rest, adrift, split, rfl, rfl⟩
  have still := (adrift.activeEdge port).trans served
  obtain ⟨channels, rfl, drift⟩ := adrift
  refine ⟨_, taken, rest, ⟨channels, rfl, drift⟩, still, split, rfl, rfl, ?_⟩
  intro calm
  simp only [remove, Bool.or_eq_false_iff] at calm
  have seen : channels.unseen ref ≠ true := by simp [calm.2]
  have front := head.resolve_left fun noted => seen ((drift.edge ref).unseen noted)
  have stays := ((drift.edge ref).head packet front).resolve_left seen
  rw [split] at stays
  exact some_inj.mp stays

theorem take_ensures (fresh : Fresh now port packet) : Ensures (take port) now fun found after =>
      ∃ middle ref taken rest, Adrift now middle ∧ activeEdge middle port = some ref ∧
        (middle.edges ref).queue = taken :: rest ∧ found = some taken ∧
        after = remove port ref taken middle ∧
        ((remove port ref taken middle).raced = false → taken = packet) := by
  obtain ⟨ref, served, filled, head⟩ := fresh
  unfold take
  refine ensures_then active_ensures ?_
  rintro found first ⟨toFirst, rfl⟩
  simp only [served]
  have stays : (first.edges ref).queue ≠ [] ∧
      (first.unseen ref = true ∨ (first.edges ref).queue.head? = some packet) := by
    obtain ⟨channels, rfl, drift⟩ := toFirst
    exact ⟨(drift.edge ref).filled filled,
      head.elim (fun noted => .inl ((drift.edge ref).unseen noted)) ((drift.edge ref).head packet)⟩
  refine ensures_mono (pop_fresh ((toFirst.activeEdge port).trans served) stays.1 stays.2) ?_
  rintro found after ⟨middle, taken, rest, toMiddle, facts⟩
  exact ⟨middle, ref, taken, rest, toFirst.trans toMiddle, facts⟩

theorem takeEvent_ensures (ready : Ready start now) (fresh : Fresh now port packet)
    (unmarked : packet.eos = false) (event : packet.event = true) :
    Ensures (takeEvent port) now fun _ after =>
      Reaches start now after port ∧ weight after < weight now := by
  unfold takeEvent
  refine ensures_then (take_ensures fresh) ?_
  rintro found after ⟨middle, ref, taken, rest, adrift, served, split, rfl, rfl, same⟩
  apply ensures_modify
  exact ready.takes adrift served split .event (by simp) same ⟨unmarked, event⟩ (by simp)

theorem dropStale_ensures (ready : Ready start now) (served : activeEdge now port = some ref)
    (filled : (now.edges ref).queue ≠ []) (front : (now.edges ref).queue.head? = some packet)
    (data : packet.isData = true) : Ensures (dropStale port ref) now fun _ after =>
      Reaches start now after port ∧ weight after < weight now := by
  unfold dropStale
  refine ensures_then (pop_fresh served filled (.inr front)) ?_
  rintro found after ⟨middle, taken, rest, adrift, still, split, rfl, rfl, same⟩
  apply ensures_modify_bind
  apply ensures_modify
  exact ready.takes adrift still split .stale (by simp) same data (by simp)

theorem served_live (served : activeEdge now port = some ref)
    (predecessor : mainEdge now port ≠ some ref) : live now.toChannels ref = true := by
  simp only [activeEdge, bind_eq_some_iff] at served
  obtain ⟨binding, found, chosen⟩ := served
  cases search : binding.predecessors.find? (live now.toChannels) with
  | none =>
    rw [servedBy, search, none_or] at chosen
    exact absurd (by simp [mainEdge, found, chosen]) predecessor
  | some other =>
    rw [servedBy, search] at chosen
    cases chosen
    exact find?_some search

theorem skimHead_ensures {fuel : Nat} (ready : Ready start now) (enough : weight now < fuel) :
    Ensures (skimHead fuel port) now fun found after => Reaches start now after port ∧
        ∀ packet, found = some packet → Fresh after port packet ∧ packet.isData = true := by
  induction fuel generalizing now with
  | zero => omega
  | succ fuel step =>
    -- After a round that took something, the rest of the loop starts from a lighter state.
    have again : ∀ middle : Acquisition, Reaches start now middle port →
        weight middle < weight now →
        Ensures (skimHead fuel port) middle fun found after =>
          Reaches start now after port ∧
            ∀ packet, found = some packet → Fresh after port packet ∧ packet.isData = true := by
      intro middle reached lighter
      refine ensures_mono (step reached.ready (by omega)) ?_
      rintro found after ⟨further, fresh⟩
      exact ⟨reached.trans further, fresh⟩
    unfold skimHead
    refine ensures_then active_ensures ?_
    rintro found first ⟨toFirst, rfl⟩
    cases served : activeEdge now port with
    | none => exact ensures_pure ⟨ready.reaches_adrift toFirst port, by simp⟩
    | some ref =>
      apply ensures_get_bind
      refine ensures_then peek_ensures ?_
      rintro head looked ⟨middle, toMiddle, rfl, rfl⟩
      have adrift := Adrift.trans toFirst toMiddle
      have reached := ready.reaches_adrift adrift port
      have servedMiddle : activeEdge middle port = some ref := (adrift.activeEdge port).trans served
      have inside := activeEdge_mem servedMiddle
      have looked := reached.trans (reached.ready.reaches_look inside)
      have same : isPredecessor first port ref = isPredecessor (look ref middle) port ref := by
        obtain ⟨channels, rfl, -⟩ := toMiddle
        rfl
      rw [same]
      cases front : (middle.edges ref).queue.head? with
      | none =>
        -- A live edge without packets is not retired: the port waits for it.
        simp only
        split
        next predecessor =>
          refine ensures_then isRetired_ensures ?_
          rintro lapsed last ⟨toLast, rfl⟩
          have final := looked.trans (looked.ready.reaches_adrift toLast port)
          have waits : (last.edges ref).state ≠ .retired := by
            have alive := served_live servedMiddle
              (of_decide_eq_true predecessor)
            simp only [live, head?_eq_none_iff.mp front, isEmpty_nil,
              Bool.not_true, Bool.false_or, decide_eq_true_eq] at alive
            obtain ⟨channels, rfl, drift⟩ := toLast
            exact fun lapsed => alive ((drift.edge ref).retired.mp lapsed)
          simp only [waits]
          exact ensures_pure ⟨final, by simp⟩
        next => exact ensures_pure ⟨looked, by simp⟩
      | some packet =>
        have filled : (middle.edges ref).queue ≠ [] := by
          intro empty
          simp [empty] at front
        have fresh : Fresh (look ref middle) port packet := ⟨ref, servedMiddle, filled, .inr front⟩
        simp only
        split
        next marks =>
          refine ensures_then (takeMarker_ensures looked.ready servedMiddle front marks) ?_
          rintro _ after ⟨further, lighter⟩
          exact again after (looked.trans further) (lighter.trans_le looked.weight)
        next unmarked =>
          split
          next event =>
            refine ensures_then (takeEvent_ensures looked.ready fresh
              (by simpa using unmarked) event) ?_
            rintro _ after ⟨further, lighter⟩
            exact again after (looked.trans further) (lighter.trans_le looked.weight)
          next plain =>
            have data : packet.isData = true := by
              simp [Packet.isData, unmarked, plain]
            apply ensures_get_bind
            split
            · refine ensures_then (dropStale_ensures looked.ready servedMiddle filled front data) ?_
              rintro _ after ⟨further, lighter⟩
              exact again after (looked.trans further) (lighter.trans_le looked.weight)
            · refine ensures_pure ⟨looked, ?_⟩
              rintro other ⟨⟩
              exact ⟨fresh, data⟩

end GraphEngine.HeadSkims
