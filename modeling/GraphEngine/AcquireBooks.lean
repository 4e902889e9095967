import GraphEngine.InputBindings
import GraphEngine.Precedence
import Mathlib.Algebra.Order.BigOperators.Group.List
import Mathlib.Data.List.Find

/-!
What an acquisition does to the edges and to its records, step by step. Producers
only let an edge drift: nothing is taken off it, a live edge stays live, and its
head stays in place unless an eviction is noted. Every packet an acquisition takes
is put on record together with its fate.
-/

namespace GraphEngine.AcquireBooks

open NodeRuntimes EdgeQueues StatePrograms InputBindings Precedence Function Option
open List hiding isEmpty

/-- What producers may do to an edge between two looks. -/
structure Drifted (before after : EdgeQueue) (unseenBefore unseenAfter : Bool) : Prop where
  taken : after.taken = before.taken
  retired : after.state = .retired ↔ before.state = .retired
  settled : before.state = .retired → after.queue = before.queue
  filled : before.queue ≠ [] → after.queue ≠ []
  head : ∀ packet, before.queue.head? = some packet →
    unseenAfter = true ∨ after.queue.head? = some packet
  marker : ∀ packet, before.queue.head? = some packet → packet.eos = true →
    after.queue.head? = some packet
  unseen : unseenBefore = true → unseenAfter = true

variable (edge : EdgeQueue)

theorem Drifted.restated (state : EdgeState) (unseen : Bool)
    (same : state = .retired ↔ edge.state = .retired) :
    Drifted edge { edge with state } unseen unseen where
  taken := rfl
  retired := same
  settled := fun _ => rfl
  filled := id
  head := fun _ front => .inr front
  marker := fun _ front _ => front
  unseen := id

theorem Drifted.refl (unseen : Bool) : Drifted edge edge unseen unseen :=
  .restated edge edge.state unseen Iff.rfl

theorem Drifted.trans {first second third : EdgeQueue} {one two three : Bool}
    (left : Drifted first second one two) (right : Drifted second third two three) :
    Drifted first third one three where
  taken := right.taken.trans left.taken
  retired := right.retired.trans left.retired
  settled := fun lapsed => (right.settled (left.retired.mpr lapsed)).trans (left.settled lapsed)
  filled := fun some => right.filled (left.filled some)
  head := by
    intro packet front
    rcases left.head packet front with noted | stays
    · exact .inl (right.unseen noted)
    · exact right.head packet stays
  marker := fun packet front marks => right.marker packet (left.marker packet front marks) marks
  unseen := fun noted => right.unseen (left.unseen noted)

theorem Drifted.enqueue (packet : Packet) (unseen : Bool)
    (open' : edge.state ≠ .retired) : Drifted edge (edge.enqueue packet) unseen unseen where
  taken := rfl
  retired := Iff.rfl
  settled := fun lapsed => absurd lapsed open'
  filled := fun _ => by simp [EdgeQueue.enqueue]
  head := fun _ front => .inr (mem_head?_append_of_mem_head? front)
  marker := fun _ front _ => mem_head?_append_of_mem_head? front
  unseen := id

theorem unshut_not_retired {edge : EdgeQueue} (unshut : edge.shut = false) :
    edge.state ≠ .retired := by
  intro lapsed
  simp [EdgeQueue.shut, lapsed] at unshut

theorem push_drifted (packet : Packet) (unseen : Bool) : Drifted edge (edge.push packet).2 unseen
      (unseen || decide ((edge.push packet).1 = .acceptedDroppedOldest)) := by
  have step := edge.pushed packet
  generalize edge.push packet = result at step ⊢
  cases step with
  | cancelled | merged | dropped => simpa using Drifted.refl edge unseen
  | stored unshut => simpa using Drifted.enqueue edge packet unseen (unshut_not_retired unshut)
  | refused =>
    have blocked : Drifted edge edge.block unseen unseen := by
      unfold EdgeQueue.block
      split
      next active => exact .restated edge .backpressured unseen (by simp [active])
      next => exact .refl edge unseen
    simpa using blocked
  | evicted unshut _ _ _ split leading loses =>
    have open' := unshut_not_retired unshut
    refine ⟨rfl, Iff.rfl, fun lapsed => absurd lapsed open', fun _ => by simp,
      fun _ _ => .inl (by simp), ?_, fun noted => by simp⟩
    -- A marker at the head is skipped by the eviction.
    intro first front marks
    rename_i older newer victim
    cases older with
    | nil =>
      rw [split] at front
      cases front
      rw [loses] at marks
      cases marks
    | cons other rest =>
      rw [split] at front
      cases front
      rfl

theorem move_drifted (move : Move) (unseen : Bool) :
    Drifted edge (move.apply edge) unseen (unseen || move.evicts edge) := by
  cases move with
  | push packet => exact push_drifted edge packet unseen
  | injectEos marker =>
    simp only [Move.apply, Move.evicts, Bool.or_false, EdgeQueue.injectEos]
    split_ifs with retired
    · exact .refl edge unseen
    · exact .refl edge unseen
    · exact .enqueue edge marker unseen retired
    · exact .refl edge unseen
  | markDraining =>
    simp only [Move.apply, Move.evicts, Bool.or_false, EdgeQueue.markDraining]
    split
    next => exact .refl edge unseen
    next unshut =>
      have open' := unshut_not_retired (by simpa using unshut)
      exact .restated edge .draining unseen (by simp [open'])

theorem move_length (move : Move) : (move.apply edge).queue.length ≤ edge.queue.length + 1 := by
  cases move with
  | push packet =>
    simp only [Move.apply]
    have step := edge.pushed packet
    generalize edge.push packet = result at step ⊢
    cases step with
    | cancelled | merged | dropped => exact Nat.le_succ _
    | stored => simp [EdgeQueue.enqueue]
    | refused => simp [EdgeQueue.block_queue]
    | evicted _ _ _ _ split =>
      simp only [split, length_append, length_cons, length_nil]
      omega
  | injectEos marker =>
    simp only [Move.apply, EdgeQueue.injectEos]
    split_ifs <;> simp [EdgeQueue.enqueue]
  | markDraining =>
    simp only [Move.apply, EdgeQueue.markDraining]
    split <;> exact Nat.le_succ _

/-- The moves still to come and the places on these edges. -/
def load (channels : Channels) (refs : List ChannelRef) : Nat :=
  (channels.script.map length).sum +
    (refs.map fun ref => (channels.edges ref).queue.length + 1).sum

structure Drift (before after : Channels) : Prop where
  edge : ∀ ref, Drifted (before.edges ref) (after.edges ref) (before.unseen ref)
    (after.unseen ref)
  load : ∀ refs : List ChannelRef, refs.Nodup → load after refs ≤ load before refs
  quiet : before.script = [] → after = before
  accounted : (∀ ref, (before.edges ref).Accounted) → ∀ ref, (after.edges ref).Accounted

theorem Drift.refl (channels : Channels) : Drift channels channels where
  edge := fun _ => .refl _ _
  load := fun _ _ => Nat.le_refl _
  quiet := fun _ => rfl
  accounted := id

theorem Drift.trans {first second third : Channels} (left : Drift first second)
    (right : Drift second third) : Drift first third where
  edge := fun ref => (left.edge ref).trans (right.edge ref)
  load := fun refs distinct => (right.load refs distinct).trans (left.load refs distinct)
  quiet := by
    intro still
    have same := left.quiet still
    subst same
    exact right.quiet still
  accounted := fun good => right.accounted (left.accounted good)

theorem sum_update_le (refs : List ChannelRef) (distinct : refs.Nodup) (ref : ChannelRef)
    (before after : ChannelRef → Nat) (others : ∀ other, other ≠ ref → after other = before other)
    (grows : after ref ≤ before ref + 1) : (refs.map after).sum ≤ (refs.map before).sum + 1 := by
  induction refs with
  | nil => simp
  | cons first rest step =>
    rw [nodup_cons] at distinct
    simp only [map_cons, sum_cons]
    by_cases here : first = ref
    · subst here
      have same : rest.map after = rest.map before := by
        apply map_congr_left
        intro other member
        exact others other fun equal => distinct.1 (equal ▸ member)
      rw [same]
      omega
    · have kept := others first here
      have later := step distinct.2
      omega

theorem move_accounted {edge : EdgeQueue} (good : edge.Accounted) (move : Move) :
    (move.apply edge).Accounted := by
  cases move with
  | push packet => exact good.push packet
  | injectEos marker => exact good.injectEos marker
  | markDraining => exact good.markDraining

structure Moved (moves : Nat) (before after : Channels) : Prop where
  edge : ∀ ref, Drifted (before.edges ref) (after.edges ref) (before.unseen ref)
    (after.unseen ref)
  load : ∀ refs : List ChannelRef, refs.Nodup → load after refs ≤ load before refs + moves
  accounted : (∀ ref, (before.edges ref).Accounted) → ∀ ref, (after.edges ref).Accounted

theorem disturb_moved (channels : Channels) (disturbance : ChannelRef × Move) :
    Moved 1 channels (disturb channels disturbance) where
  edge := by
    intro ref
    by_cases here : ref = disturbance.1
    · subst here
      simpa [disturb] using move_drifted (channels.edges disturbance.1) disturbance.2 _
    · simpa [disturb, update_of_ne here] using Drifted.refl _ _
  load := by
    intro refs distinct
    have grown := sum_update_le refs distinct disturbance.1
      (fun ref => (channels.edges ref).queue.length + 1)
      (fun ref => ((disturb channels disturbance).edges ref).queue.length + 1)
      (fun other apart => by simp [disturb, update_of_ne apart])
      (by simpa [disturb] using move_length (channels.edges disturbance.1) disturbance.2)
    have same : (disturb channels disturbance).script = channels.script := rfl
    simp only [load, same]
    omega
  accounted := by
    intro good ref
    by_cases here : ref = disturbance.1
    · subst here
      simpa [disturb] using move_accounted (good disturbance.1) disturbance.2
    · simpa [disturb, update_of_ne here] using good ref

theorem disturbs_moved (moves : List (ChannelRef × Move)) (channels : Channels) :
    Moved moves.length channels (moves.foldl disturb channels) := by
  induction moves generalizing channels with
  | nil => exact ⟨fun _ => .refl _ _, fun _ _ => Nat.le_refl _, id⟩
  | cons move rest step =>
    have one := disturb_moved channels move
    have others := step (disturb channels move)
    refine ⟨fun ref => (one.edge ref).trans (others.edge ref), ?_,
      fun good => others.accounted (one.accounted good)⟩
    intro refs distinct
    have first := one.load refs distinct
    have later := others.load refs distinct
    simp only [foldl_cons, length_cons]
    omega

theorem advance_drift (channels : Channels) : Drift channels (advance channels) := by
  unfold advance
  split
  next => exact .refl channels
  next moves rest pending =>
    have moved := disturbs_moved moves { channels with script := rest }
    refine ⟨moved.edge, ?_, fun still => ?_, moved.accounted⟩
    · intro refs distinct
      have played := moved.load refs distinct
      simp only [load, pending, map_cons, sum_cons] at played ⊢
      omega
    · rw [pending] at still
      cases still

def Adrift (before after : Acquisition) : Prop :=
  ∃ channels, after = { before with toChannels := channels } ∧ Drift before.toChannels channels

theorem Adrift.refl (state : Acquisition) : Adrift state state := ⟨state.toChannels, rfl, .refl _⟩

variable {third : Acquisition} {start state : Acquisition} {port : Nat} {rest : List Packet}

theorem Adrift.trans {first second : Acquisition} (left : Adrift first second)
    (right : Adrift second third) : Adrift first third := by
  obtain ⟨one, rfl, firstDrift⟩ := left
  obtain ⟨two, rfl, secondDrift⟩ := right
  exact ⟨two, rfl, firstDrift.trans secondDrift⟩

theorem interfere_adrift (state : Acquisition) : Adrift state (interfere state) :=
  ⟨_, rfl, advance_drift _⟩

def live (channels : Channels) (ref : ChannelRef) : Bool :=
  !(channels.edges ref).queue.isEmpty || (channels.edges ref).state ≠ .retired

variable {ref : ChannelRef}

theorem Drifted.live {before after : Channels}
    (drifted : Drifted (before.edges ref) (after.edges ref) (before.unseen ref) (after.unseen ref)) :
    live after ref = live before ref := by
  unfold AcquireBooks.live
  by_cases lapsed : (before.edges ref).state = .retired
  · simp [lapsed, drifted.retired.mpr lapsed, drifted.settled lapsed]
  · have open' : (after.edges ref).state ≠ .retired :=
      fun later => lapsed (drifted.retired.mp later)
    simp [lapsed, open']

theorem Drift.live {before after : Channels} (drift : Drift before after) (ref : ChannelRef) :
    live after ref = live before ref :=
  (drift.edge ref).live

def servedBy (channels : Channels) (binding : InputPortBinding) : Option ChannelRef :=
  (binding.predecessors.find? (live channels)).or binding.edge

def activeEdge (state : Acquisition) (port : Nat) : Option ChannelRef :=
  state.ports[port]?.bind (servedBy state.toChannels)

variable {after before : Acquisition}

theorem Adrift.activeEdge (adrift : Adrift before after) (port : Nat) :
    activeEdge after port = activeEdge before port := by
  obtain ⟨channels, rfl, drift⟩ := adrift
  have same : live channels = live before.toChannels := funext drift.live
  have served : servedBy channels = servedBy before.toChannels := by
    funext binding
    simp only [servedBy, same]
  simp only [AcquireBooks.activeEdge, served]

theorem isEmpty_ensures : Ensures (isEmpty ref) state fun answer after =>
      Adrift state after ∧ answer = (after.edges ref).queue.isEmpty := by
  unfold isEmpty
  apply ensures_modify_bind
  apply ensures_get_bind
  exact ensures_pure ⟨interfere_adrift state, rfl⟩

theorem isRetired_ensures : Ensures (isRetired ref) state fun answer after =>
      Adrift state after ∧ answer = decide ((after.edges ref).state = .retired) := by
  unfold isRetired
  apply ensures_modify_bind
  apply ensures_get_bind
  exact ensures_pure ⟨interfere_adrift state, rfl⟩

theorem firstLive_ensures {refs : List ChannelRef} :
    Ensures (firstLive refs) state fun found after =>
      Adrift state after ∧ found = refs.find? (live state.toChannels) := by
  induction refs generalizing state with
  | nil => exact ensures_pure ⟨.refl state, rfl⟩
  | cons ref rest step =>
    unfold firstLive
    refine ensures_then isEmpty_ensures ?_
    rintro empty first ⟨toFirst, rfl⟩
    obtain ⟨one, rfl, firstDrift⟩ := toFirst
    by_cases filled : (one.edges ref).queue = []
    · simp only [filled]
      refine ensures_then isRetired_ensures ?_
      rintro retired second ⟨toSecond, rfl⟩
      obtain ⟨two, rfl, secondDrift⟩ := toSecond
      have both := firstDrift.trans secondDrift
      by_cases lapsed : (two.edges ref).state = .retired
      · have dead : live state.toChannels ref = false := by
          have ended : (one.edges ref).state = .retired := (secondDrift.edge ref).retired.mp lapsed
          rw [← firstDrift.live ref]
          simp [live, filled, ended]
        simp only [lapsed]
        refine ensures_mono step ?_
        rintro found last ⟨toLast, rfl⟩
        refine ⟨Adrift.trans ⟨two, rfl, both⟩ toLast, ?_⟩
        have same : live two = live state.toChannels := funext both.live
        rw [find?_cons_of_neg (by simp [dead]), same]
      · have alive : live state.toChannels ref = true := by
          rw [← both.live ref]
          simp [live, lapsed]
        simp only [lapsed]
        apply ensures_pure
        exact ⟨⟨two, rfl, both⟩, (find?_cons_of_pos alive).symm⟩
    · have alive : live state.toChannels ref = true := by
        rw [← firstDrift.live ref]
        simp [live, filled]
      have some : (one.edges ref).queue.isEmpty = false := by simpa using filled
      simp only [some]
      apply ensures_pure
      exact ⟨⟨one, rfl, firstDrift⟩, (find?_cons_of_pos alive).symm⟩

theorem active_ensures : Ensures (active port) state fun found after =>
      Adrift state after ∧ found = activeEdge state port := by
  unfold active
  apply ensures_get_bind
  cases bound : state.ports[port]? with
  | none => exact ensures_pure ⟨.refl state, by simp [activeEdge, bound]⟩
  | some binding =>
    refine ensures_then firstLive_ensures ?_
    rintro found after ⟨adrift, rfl⟩
    have served : activeEdge state port =
        (binding.predecessors.find? (live state.toChannels)).or binding.edge := by
      simp [activeEdge, bound, servedBy]
    cases search : binding.predecessors.find? (live state.toChannels) with
    | none | some ref => exact ensures_pure ⟨adrift, by simp [served, search]⟩

theorem peek_ensures : Ensures (peek ref) state fun head after =>
      ∃ middle, Adrift state middle ∧ after = look ref middle ∧
        head = (middle.edges ref).queue.head? := by
  unfold peek
  apply ensures_modify_bind
  apply ensures_modify_bind
  apply ensures_get_bind
  exact ensures_pure ⟨interfere state, interfere_adrift state, rfl, rfl⟩

theorem pop_ensures (filled : (state.edges ref).queue ≠ []) :
    Ensures (pop port ref) state fun found after => ∃ middle packet rest, Adrift state middle ∧
        (middle.edges ref).queue = packet :: rest ∧ found = some packet ∧
        after = remove port ref packet middle := by
  unfold pop
  apply ensures_modify_bind
  apply ensures_get_bind
  have stays : ((interfere state).edges ref).queue ≠ [] :=
    ((advance_drift state.toChannels).edge ref).filled filled
  obtain ⟨packet, rest, split⟩ := exists_cons_of_ne_nil stays
  have front : ((interfere state).edges ref).peek = some packet := by
    simp [EdgeQueue.peek, split]
  simp only [front]
  apply ensures_modify_bind
  exact ensures_pure ⟨interfere state, packet, rest, interfere_adrift state, split, rfl, rfl⟩

def bindingEdges (binding : InputPortBinding) : List ChannelRef :=
  binding.predecessors ++ binding.edge.toList

def edgesAt (state : Acquisition) (port : Nat) : List ChannelRef :=
  (state.ports[port]?.map bindingEdges).getD []

def allEdges (state : Acquisition) : List ChannelRef := state.ports.flatMap bindingEdges

def Distinct (state : Acquisition) : Prop := (allEdges state).Nodup

def weight (state : Acquisition) : Nat := load state.toChannels (allEdges state)

def account (state : Acquisition) : List (Removal × Fate) := state.removed.zip state.fates

def removedFrom (state : Acquisition) (ref : ChannelRef) : List Packet :=
  (state.removed.filter fun removal => removal.edge = ref).map Removal.packet

def Suits (packet : Packet) : Fate → Prop
  | .marker => packet.eos = true
  | .event => packet.eos = false ∧ packet.event = true
  | .delivered | .late | .stale => packet.isData = true

/-- The binding still describes the same ports; predecessors may be gone. -/
def SamePort (before after : InputPortBinding) : Prop :=
  after.port = before.port ∧ after.edge = before.edge ∧ after.required = before.required ∧
    after.predecessors.Sublist before.predecessors

def Marked (removed : List Removal) (ref : ChannelRef) : Prop :=
  ∃ removal ∈ removed, removal.edge = ref ∧ removal.packet.eos = true

/-- The removals of a port follow the order of its edges. An edge is only passed
when it was retired from the start or its marker was taken. -/
structure InOrder (start now : Acquisition) : Prop where
  bound : Distinct start
  gone : ∀ (port : Nat) (first later : InputPortBinding), start.ports[port]? = some first →
    now.ports[port]? = some later → ∀ ref ∈ first.predecessors, ref ∈ later.predecessors ∨
      Marked now.removed ref ∧ (now.edges ref).state = .retired
  retired : ∀ ref, (now.edges ref).state = .retired →
    (start.edges ref).state = .retired ∨ Marked now.removed ref
  lasting : ∀ ref, (start.edges ref).state = .retired → (now.edges ref).state = .retired
  dead : ∀ ref, live start.toChannels ref = false → live now.toChannels ref = false
  alive : ∀ removal ∈ now.removed, live start.toChannels removal.edge = true
  waited : ∀ earlier removal later, now.removed = earlier ++ removal :: later →
    ∀ binding, start.ports[removal.port]? = some binding →
      ∀ ref, Precedes (bindingEdges binding) ref removal.edge →
        (start.edges ref).state = .retired ∨ Marked earlier ref
  passed : ∀ removal ∈ now.removed, ∀ first later : InputPortBinding,
    start.ports[removal.port]? = some first → now.ports[removal.port]? = some later →
      ∀ ref, Precedes (bindingEdges first) ref removal.edge → ref ∈ later.predecessors →
        live now.toChannels ref = false
  forward : ∀ (port : Nat) (binding : InputPortBinding), start.ports[port]? = some binding →
    Forward (bindingEdges binding) Removal.edge
      (now.removed.filter fun removal => removal.port = port)

/-- The edges have lost exactly what is on record. -/
structure Ledger (start now : Acquisition) : Prop extends InOrder start now where
  ports : List.Forall₂ SamePort start.ports now.ports
  policy : now.policy = start.policy
  aligned : now.aligned = start.aligned
  taken : ∀ ref, (now.edges ref).taken = (start.edges ref).taken ++ removedFrom now ref
  kept : start.script = [] → now.script = [] ∧
    ∀ ref, (start.edges ref).queue = removedFrom now ref ++ (now.edges ref).queue
  calm : start.script = [] → (∀ ref, start.unseen ref = false) →
    now.raced = start.raced ∧ ∀ ref, now.unseen ref = false
  member : ∀ removal ∈ now.removed, removal.edge ∈ edgesAt start removal.port
  accounted : (∀ ref, (start.edges ref).Accounted) → ∀ ref, (now.edges ref).Accounted

/-- The batch and the counters show exactly what is on record. -/
structure Records (start now : Acquisition) : Prop where
  pending : now.fates.length ≤ now.removed.length
  packets : now.batch.packets =
    ((account now).filter fun entry => entry.2 = .delivered).map fun entry => entry.1.packet
  packetPorts : now.batch.ports =
    ((account now).filter fun entry => entry.2 = .delivered).map
      fun entry => portName start entry.1.port
  events : now.batch.events =
    ((account now).filter fun entry => entry.2 = .event).map fun entry => entry.1.packet
  eventPorts : now.batch.eventPorts =
    ((account now).filter fun entry => entry.2 = .event).map
      fun entry => portName start entry.1.port
  late : now.lateDropped = start.lateDropped + .ofNat (now.fates.count .late)
  stale : now.staleDropped = start.staleDropped + .ofNat (now.fates.count .stale)
  suits : now.raced = false → ∀ entry ∈ account now, Suits entry.1.packet entry.2

structure Books (start now : Acquisition) : Prop extends Ledger start now, Records start now

def entered (port : Nat) (packet : Packet) (fate : Fate) (state : Acquisition) : Acquisition :=
  match fate with
  | .marker => { state with fates := state.fates ++ [.marker] }
  | .late => { state with
      fates := state.fates ++ [.late], lateDropped := state.lateDropped + 1 }
  | .stale => { state with
      fates := state.fates ++ [.stale], staleDropped := state.staleDropped + 1 }
  | .event => { state with
      fates := state.fates ++ [.event]
      batch := { state.batch with
        events := state.batch.events ++ [packet]
        eventPorts := state.batch.eventPorts ++ [portName state port] } }
  | .delivered => { state with
      fates := state.fates ++ [.delivered]
      batch := { state.batch with
        packets := state.batch.packets ++ [packet]
        ports := state.batch.ports ++ [portName state port] } }

theorem entered_fates (port : Nat) (packet : Packet) (fate : Fate) (state : Acquisition) :
    (entered port packet fate state).fates = state.fates ++ [fate] := by
  cases fate <;> rfl

theorem zip_settled {Left Right : Type} (lefts : List Left) (rights : List Right) (left : Left)
    (right : Right) (pending : lefts[rights.length]? = some left) :
    lefts.zip (rights ++ [right]) = lefts.zip rights ++ [(left, right)] := by
  induction rights generalizing lefts with
  | nil =>
    cases lefts with
    | nil => simp at pending
    | cons first rest =>
      simp only [length_nil, getElem?_cons_zero, some_inj] at pending
      simp [pending]
  | cons first rest step =>
    cases lefts with
    | nil => simp at pending
    | cons other others =>
      have later := step others (by simpa using pending)
      simpa using later

theorem zip_pending {Left Right : Type} (lefts : List Left) (rights : List Right) (left : Left)
    (fits : rights.length ≤ lefts.length) : (lefts ++ [left]).zip rights = lefts.zip rights := by
  induction rights generalizing lefts with
  | nil => simp
  | cons first rest step =>
    cases lefts with
    | nil => simp at fits
    | cons other others =>
      have later := step others (by simpa using fits)
      simpa using later

theorem forall₂_getElem? {Item : Type} {Related : Item → Item → Prop} {lefts rights : List Item}
    (related : List.Forall₂ Related lefts rights) {index : Nat} {left : Item}
    (found : lefts[index]? = some left) : ∃ right, rights[index]? = some right ∧
      Related left right := by
  obtain ⟨below, rfl⟩ := List.getElem?_eq_some_iff.mp found
  have beyond : index < rights.length := related.length_eq ▸ below
  exact ⟨_, getElem?_eq_getElem beyond, related.get below beyond⟩

theorem forall₂_absent {Item : Type} {Related : Item → Item → Prop} {lefts rights : List Item}
    (related : List.Forall₂ Related lefts rights) {index : Nat} (absent : lefts[index]? = none) :
    rights[index]? = none := by
  rwa [getElem?_eq_none_iff, ← related.length_eq, ← getElem?_eq_none_iff]

variable {now : Acquisition}

theorem Ledger.portName (ledger : Ledger start now) (port : Nat) :
    portName now port = portName start port := by
  cases found : start.ports[port]? with
  | none => simp [InputBindings.portName, found, forall₂_absent ledger.ports found]
  | some binding =>
    obtain ⟨later, foundLater, same⟩ := forall₂_getElem? ledger.ports found
    simp [InputBindings.portName, found, foundLater, same.1]

theorem Records.enter (records : Records start now) (ledger : Ledger start now) {removal : Removal}
    (pending : now.removed[now.fates.length]? = some removal) (fate : Fate)
    (suits : now.raced = false → Suits removal.packet fate) :
    Records start (entered removal.port removal.packet fate now) := by
  have fits : now.fates.length < now.removed.length := (List.getElem?_eq_some_iff.mp pending).1
  have name := ledger.portName removal.port
  have settled : account (entered removal.port removal.packet fate now) =
      account now ++ [(removal, fate)] := by
    have zipped := zip_settled now.removed now.fates removal fate pending
    cases fate <;> exact zipped
  have suited : now.raced = false → ∀ entry ∈ account now ++ [(removal, fate)],
      Suits entry.1.packet entry.2 := fun calm =>
    forall_mem_append.mpr ⟨records.suits calm, forall_mem_singleton.mpr (suits calm)⟩
  refine ⟨?_, ?_, ?_, ?_, ?_, ?_, ?_, ?_⟩
  · rw [entered_fates, length_append]
    cases fate <;> exact fits
  · rw [settled, filter_append, map_append, ← records.packets]
    cases fate <;> simp [entered]
  · rw [settled, filter_append, map_append, ← records.packetPorts]
    cases fate <;> simp [entered, name]
  · rw [settled, filter_append, map_append, ← records.events]
    cases fate <;> simp [entered]
  · rw [settled, filter_append, map_append, ← records.eventPorts]
    cases fate <;> simp [entered, name]
  · rw [entered_fates, count_append, UInt64.ofNat_add, ← UInt64.add_assoc, ← records.late]
    cases fate <;> simp [entered]
  · rw [entered_fates, count_append, UInt64.ofNat_add, ← UInt64.add_assoc, ← records.stale]
    cases fate <;> simp [entered]
  · rw [settled]
    cases fate <;> exact suited

theorem removedFrom_remove (state : Acquisition) (port : Nat) (ref other : ChannelRef)
    (packet : Packet) : removedFrom (remove port ref packet state) other =
      removedFrom state other ++ if other = ref then [packet] else [] := by
  by_cases here : other = ref
  · subst here
    simp [removedFrom, remove]
  · have apart : ref ≠ other := fun same => here same.symm
    simp [removedFrom, remove, here, apart]

theorem activeEdge_mem (served : activeEdge state port = some ref) : ref ∈ edgesAt state port := by
  simp only [activeEdge, bind_eq_some_iff] at served
  obtain ⟨binding, found, chosen⟩ := served
  simp only [edgesAt, found, map_some, getD_some, bindingEdges, mem_append]
  cases search : binding.predecessors.find? (live state.toChannels) with
  | none =>
    rw [servedBy, search, none_or] at chosen
    simp [chosen]
  | some other =>
    rw [servedBy, search] at chosen
    cases chosen
    exact .inl (mem_of_find?_eq_some search)

theorem Marked.mono {fewer removed : List Removal} (marked : Marked fewer ref)
    (subset : fewer ⊆ removed) : Marked removed ref := by
  obtain ⟨removal, listed, facts⟩ := marked
  exact ⟨removal, subset listed, facts⟩

theorem Distinct.binding (distinct : Distinct state) {binding : InputPortBinding}
    (found : state.ports[port]? = some binding) : (bindingEdges binding).Nodup :=
  (nodup_flatMap.mp distinct).1 binding (mem_of_getElem? found)

theorem precedes_predecessor {binding : InputPortBinding} {first second : ChannelRef}
    (distinct : (bindingEdges binding).Nodup)
    (precedes : Precedes (bindingEdges binding) first second) : first ∈ binding.predecessors := by
  have listed := precedes.first_mem
  unfold bindingEdges at distinct precedes listed
  cases edge : binding.edge with
  | none => simpa [edge] using listed
  | some main =>
    rw [edge] at distinct precedes listed
    rcases mem_append.mp listed with before | last
    · exact before
    · rw [toList_some, mem_singleton] at last
      subst last
      exact absurd precedes (precedes_last distinct)

theorem served_past (distinct : Distinct start) (same : List.Forall₂ SamePort start.ports now.ports)
    {passed : ChannelRef} (served : activeEdge now port = some ref) {first later : InputPortBinding}
    (found : start.ports[port]? = some first) (foundLater : now.ports[port]? = some later)
    (precedes : Precedes (bindingEdges first) passed ref) (listed : passed ∈ later.predecessors) :
    live now.toChannels passed = false := by
  obtain ⟨other, foundOther, -, -, -, fewer⟩ := forall₂_getElem? same found
  cases foundLater.symm.trans foundOther
  simp only [activeEdge, foundLater, bind_some, servedBy] at served
  cases search : later.predecessors.find? (live now.toChannels) with
  | none => simpa using find?_eq_none.mp search passed listed
  | some chosen =>
    rw [search] at served
    cases served
    have shorter : later.predecessors.Sublist (bindingEdges first) :=
      fewer.trans (sublist_append_left _ _)
    have bound := distinct.binding found
    exact (precedes.restrict shorter bound listed (mem_of_find?_eq_some search)).find_skips
      (shorter.nodup bound) search

variable {packet : Packet} {channels : Channels}

theorem live_filled (front : (channels.edges ref).queue = packet :: rest) :
    live channels ref = true := by
  simp [live, front]

theorem dead_retired (dead : live channels ref = false) :
    (channels.edges ref).state = .retired := by
  simp only [live, Bool.or_eq_false_iff, decide_eq_false_iff_not, not_not] at dead
  exact dead.2

@[simp]
theorem remove_state (port : Nat) (ref other : ChannelRef) (packet : Packet) (state : Acquisition) :
    ((remove port ref packet state).edges other).state = (state.edges other).state := by
  by_cases here : other = ref
  · subst here
    simp only [remove, update_self, EdgeQueue.pop]
    split <;> rfl
  · simp [remove, update_of_ne here]

theorem remove_live {other : ChannelRef} (apart : other ≠ ref) (packet : Packet)
    (state : Acquisition) :
    live (remove port ref packet state).toChannels other = live state.toChannels other := by
  simp [live, remove, update_of_ne apart]

theorem InOrder.adrift (order : InOrder start now) (adrift : Adrift now after) :
    InOrder start after := by
  obtain ⟨channels, rfl, drift⟩ := adrift
  refine { order with gone := ?_, retired := ?_, lasting := ?_, dead := ?_, passed := ?_ }
  · intro port first later found foundLater ref listed
    refine (order.gone port first later found foundLater ref listed).imp_right ?_
    exact fun lapsed => ⟨lapsed.1, (drift.edge ref).retired.mpr lapsed.2⟩
  · exact fun ref lapsed => order.retired ref ((drift.edge ref).retired.mp lapsed)
  · exact fun ref lapsed => (drift.edge ref).retired.mpr (order.lasting ref lapsed)
  · exact fun ref lapsed => (drift.live ref).trans (order.dead ref lapsed)
  · intro removal listed first later found foundLater ref precedes bound
    exact (drift.live ref).trans
      (order.passed removal listed first later found foundLater ref precedes bound)

theorem InOrder.remove (order : InOrder start now)
    (same : List.Forall₂ SamePort start.ports now.ports) (served : activeEdge now port = some ref)
    (front : (now.edges ref).queue = packet :: rest) :
    InOrder start (remove port ref packet now) := by
  have grows : now.removed ⊆ (InputBindings.remove port ref packet now).removed :=
    subset_append_left _ _
  have filled : live now.toChannels ref = true := live_filled front
  have stays : ∀ other, live now.toChannels other = false →
      live (InputBindings.remove port ref packet now).toChannels other = false := by
    intro other lapsed
    have apart : other ≠ ref := by
      rintro rfl
      rw [filled] at lapsed
      cases lapsed
    rw [remove_live apart]
    exact lapsed
  refine { order with gone := ?_, retired := ?_, lasting := ?_, dead := ?_, alive := ?_,
                      waited := ?_, passed := ?_, forward := ?_ }
  · intro other first later found foundLater each listed
    refine (order.gone other first later found foundLater each listed).imp_right ?_
    exact fun lapsed => ⟨lapsed.1.mono grows, by rw [remove_state]; exact lapsed.2⟩
  · intro other lapsed
    rw [remove_state] at lapsed
    exact (order.retired other lapsed).imp_right (·.mono grows)
  · intro other lapsed
    rw [remove_state]
    exact order.lasting other lapsed
  · exact fun other lapsed => stays other (order.dead other lapsed)
  · refine forall_mem_append.mpr ⟨order.alive, forall_mem_singleton.mpr ?_⟩
    by_contra lapsed
    have still := order.dead ref (by simpa using lapsed)
    rw [filled] at still
    cases still
  · intro earlier removal later split binding found each precedes
    rcases later.eq_nil_or_concat with rfl | ⟨front, last, rfl⟩
    · -- The new removal: whatever comes before its edge is gone from the list, or dead.
      obtain ⟨rfl, new⟩ := append_inj' split rfl
      obtain ⟨rfl, -⟩ := cons.inj new
      obtain ⟨laterBinding, foundLater, -⟩ := forall₂_getElem? same found
      have listed := precedes_predecessor (order.bound.binding found) precedes
      rcases order.gone port binding laterBinding found foundLater each listed with kept | lapsed
      · exact order.retired each
          (dead_retired (served_past order.bound same served found foundLater precedes kept))
      · exact .inr lapsed.1
    · rw [concat_eq_append, ← cons_append, ← append_assoc] at split
      obtain ⟨old, -⟩ := append_inj' split rfl
      exact order.waited earlier removal front old binding found each precedes
  · intro removal listed first later found foundLater each precedes kept
    apply stays
    rcases mem_append.mp listed with old | new
    · exact order.passed removal old first later found foundLater each precedes kept
    · cases mem_singleton.mp new
      exact served_past order.bound same served found foundLater precedes kept
  · intro other binding found
    have old := order.forward other binding found
    simp only [InputBindings.remove, filter_append]
    refine pairwise_append.mpr ⟨old, ?_, ?_⟩
    · exact List.Pairwise.sublist filter_sublist (pairwise_singleton _ _)
    · intro earlier listed new member precedes
      rw [mem_filter] at listed member
      cases mem_singleton.mp member.1
      have here : earlier.port = port := (of_decide_eq_true listed.2).trans
        (of_decide_eq_true member.2).symm
      have there : port = other := of_decide_eq_true member.2
      subst there
      obtain ⟨later, foundLater, -, edge, -⟩ := forall₂_getElem? same found
      have predecessor := precedes_predecessor (order.bound.binding found) precedes
      have kept : ref ∈ later.predecessors := by
        have listed := activeEdge_mem served
        simp only [edgesAt, foundLater, map_some, bindingEdges, edge]
          at listed
        refine (mem_append.mp listed).resolve_right fun main => ?_
        exact disjoint_of_nodup_append (order.bound.binding found) predecessor main
      -- A passed predecessor is dead, but this one holds a packet.
      have dead := order.passed earlier listed.1 binding later (by rw [here]; exact found)
        (by rw [here]; exact foundLater) ref precedes kept
      rw [filled] at dead
      cases dead

theorem Ledger.adrift (ledger : Ledger start now) (adrift : Adrift now after) :
    Ledger start after := by
  have order := ledger.toInOrder.adrift adrift
  obtain ⟨channels, rfl, drift⟩ := adrift
  refine { order, ledger with
    taken := ?_, kept := ?_, calm := ?_
    accounted := fun good => drift.accounted (ledger.accounted good) }
  · intro ref
    exact ((drift.edge ref).taken).trans (ledger.taken ref)
  · intro still
    obtain ⟨quiet, queues⟩ := ledger.kept still
    have same := drift.quiet quiet
    subst same
    exact ⟨quiet, queues⟩
  · intro still seen
    have same := drift.quiet (ledger.kept still).1
    subst same
    exact ledger.calm still seen

theorem Records.adrift (records : Records start now) (adrift : Adrift now after) :
    Records start after := by
  obtain ⟨channels, rfl, -⟩ := adrift
  exact { records with }

theorem Ledger.edgesAt (ledger : Ledger start now) (port : Nat) :
    edgesAt now port ⊆ edgesAt start port := by
  intro ref inside
  unfold AcquireBooks.edgesAt at inside ⊢
  cases found : start.ports[port]? with
  | none => simp [forall₂_absent ledger.ports found] at inside
  | some binding =>
    obtain ⟨later, foundLater, -, edge, -, fewer⟩ := forall₂_getElem? ledger.ports found
    simp only [foundLater, map_some, getD_some, bindingEdges, mem_append, edge] at inside ⊢
    exact inside.imp_left (fewer.subset ·)

theorem Ledger.remove (ledger : Ledger start now) (served : activeEdge now port = some ref)
    (front : (now.edges ref).queue = packet :: rest) :
    Ledger start (remove port ref packet now) where
  toInOrder := ledger.toInOrder.remove ledger.ports served front
  ports := ledger.ports
  policy := ledger.policy
  aligned := ledger.aligned
  taken := by
    intro other
    rw [removedFrom_remove, ← append_assoc, ← ledger.taken]
    by_cases here : other = ref
    · subst here
      simp [remove, EdgeQueue.pop, front]
    · simp [InputBindings.remove, here]
  kept := by
    intro still
    obtain ⟨quiet, queues⟩ := ledger.kept still
    refine ⟨quiet, fun other => ?_⟩
    rw [removedFrom_remove, queues other]
    by_cases here : other = ref
    · subst here
      simp [remove, EdgeQueue.pop, front]
    · simp [InputBindings.remove, here]
  member := forall_mem_append.mpr ⟨ledger.member,
    forall_mem_singleton.mpr (ledger.edgesAt port (activeEdge_mem served))⟩
  calm := by
    intro still seen
    obtain ⟨same, unseen⟩ := ledger.calm still seen
    exact ⟨by simp [InputBindings.remove, same, unseen ref], unseen⟩
  accounted := by
    intro good other
    by_cases here : other = ref
    · subst here
      simpa [remove] using (ledger.accounted good other).pop
    · simpa [InputBindings.remove, update_of_ne here] using ledger.accounted good other

theorem Records.remove (records : Records start now) (port : Nat) (ref : ChannelRef)
    (packet : Packet) : Records start (remove port ref packet now) := by
  have same : account (InputBindings.remove port ref packet now) = account now :=
    zip_pending now.removed now.fates ⟨port, ref, packet⟩ records.pending
  refine ⟨?_, same ▸ records.packets, same ▸ records.packetPorts, same ▸ records.events,
    same ▸ records.eventPorts, records.late, records.stale, ?_⟩
  · have fits := records.pending
    simp only [InputBindings.remove, length_append]
    omega
  · intro calm
    rw [same]
    apply records.suits
    simp only [InputBindings.remove, Bool.or_eq_false_iff] at calm
    exact calm.1

/-- A port's step leaves the other ports alone, and lets the edges of other ports
drift at most. -/
structure Elsewhere (before after : Acquisition) (port : Nat) : Prop where
  length : after.ports.length = before.ports.length
  ports : ∀ other, other ≠ port → after.ports[other]? = before.ports[other]?
  own : (edgesAt after port).Sublist (edgesAt before port)
  edges : ∀ ref, ref ∉ edgesAt before port →
    Drifted (before.edges ref) (after.edges ref) (before.unseen ref) (after.unseen ref)

theorem Elsewhere.trans {first second : Acquisition} (left : Elsewhere first second port)
    (right : Elsewhere second third port) : Elsewhere first third port where
  length := right.length.trans left.length
  ports := fun other apart => (right.ports other apart).trans (left.ports other apart)
  own := right.own.trans left.own
  edges := fun ref outside => (left.edges ref outside).trans
    (right.edges ref fun inside => outside (left.own.subset inside))

theorem Adrift.elsewhere (adrift : Adrift before after) (port : Nat) :
    Elsewhere before after port := by
  obtain ⟨channels, rfl, drift⟩ := adrift
  exact ⟨rfl, fun _ _ => rfl, .refl _, fun ref _ => drift.edge ref⟩

/-- The port can be served: its active edge holds something, and its head is the
packet that was looked at unless an eviction is noted. -/
def Fresh (state : Acquisition) (port : Nat) (packet : Packet) : Prop :=
  ∃ ref, activeEdge state port = some ref ∧ (state.edges ref).queue ≠ [] ∧
    (state.unseen ref = true ∨ (state.edges ref).queue.head? = some packet)

theorem Distinct.disjoint (distinct : Distinct state) {first second : Nat} (apart : first ≠ second)
    (inside : ref ∈ edgesAt state first) : ref ∉ edgesAt state second := by
  intro other
  simp only [edgesAt] at inside other
  cases foundFirst : state.ports[first]? with
  | none => simp [foundFirst] at inside
  | some one =>
    cases foundSecond : state.ports[second]? with
    | none => simp [foundSecond] at other
    | some two =>
      simp only [foundFirst, foundSecond] at inside other
      have pairs := (nodup_flatMap.mp distinct).2
      obtain ⟨below, rfl⟩ := List.getElem?_eq_some_iff.mp foundFirst
      obtain ⟨beyond, rfl⟩ := List.getElem?_eq_some_iff.mp foundSecond
      rcases Nat.lt_or_gt_of_ne apart with before | after
      · exact (pairwise_iff_getElem.mp pairs) _ _ below beyond before inside other
      · exact (pairwise_iff_getElem.mp pairs) _ _ beyond below after other inside

theorem Fresh.elsewhere {other : Nat} (fresh : Fresh before other packet)
    (distinct : Distinct before) (apart : other ≠ port) (elsewhere : Elsewhere before after port) :
    Fresh after other packet := by
  obtain ⟨ref, served, filled, head⟩ := fresh
  have drifted : ∀ each ∈ edgesAt before other,
      Drifted (before.edges each) (after.edges each) (before.unseen each) (after.unseen each) :=
    fun each inside => elsewhere.edges each (distinct.disjoint apart inside)
  have inside := activeEdge_mem served
  refine ⟨ref, ?_, (drifted ref inside).filled filled, ?_⟩
  · simp only [activeEdge, bind_eq_some_iff] at served ⊢
    obtain ⟨binding, found, chosen⟩ := served
    refine ⟨binding, (elsewhere.ports other apart).trans found, ?_⟩
    rw [← chosen, servedBy]
    congr 1
    refine find?_congr fun each listed => ?_
    have member : each ∈ edgesAt before other := by simp [edgesAt, found, bindingEdges, listed]
    rw [(drifted each member).live]
  · rcases head with noted | front
    · exact .inl ((drifted ref inside).unseen noted)
    · exact (drifted ref inside).head packet front

end GraphEngine.AcquireBooks
