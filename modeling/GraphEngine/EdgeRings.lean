import GraphEngine.EdgeQueues
import GraphEngine.RingWindows
import Mathlib.Data.List.TakeWhile
import Mathlib.Data.UInt

/-!
`EdgeChannel` of edge_channel.cpp: a ring buffer with a head, a size and
metrics. The sums of `head_` and `size_` are 32-bit sums; an index is below the
ring size, so stepping it by one never wraps. Every call of the channel is
simulated by the same call on the bounded list of `EdgeQueues`.
-/

namespace GraphEngine.EdgeRings

open GraphSpecs EdgeQueues RingWindows List EdgeQueue Nat

structure EdgeMetrics where
  queueDepth : Nat := 0
  maxDepth : Nat := 0
  pushed : UInt64 := 0
  popped : UInt64 := 0
  dropCount : UInt64 := 0
  wouldBlockCount : UInt64 := 0
  cancelledCount : UInt64 := 0
  deriving DecidableEq

structure EdgeRing where
  policy : DropPolicy
  ring : Slots Packet
  state : EdgeState := .active
  head : Nat := 0
  size : Nat := 0
  metrics : EdgeMetrics := {}
  deriving DecidableEq

namespace EdgeRing

def create (policy : DropPolicy) (capacity : Nat) : EdgeRing :=
  { policy, ring := List.replicate (max capacity 1) none }

def endIndex (edge : EdgeRing) : Nat := (edge.head + edge.size) % 2 ^ 32 % edge.ring.length

def tailIndex (edge : EdgeRing) : Nat :=
  (edge.head + edge.size + (2 ^ 32 - 1)) % 2 ^ 32 % edge.ring.length

def next (edge : EdgeRing) (index : Nat) : Nat := (index + 1) % edge.ring.length

def shut (edge : EdgeRing) : Bool := edge.state = .draining || edge.state = .retired

def tailHasEos (edge : EdgeRing) : Bool :=
  if edge.size = 0 then false else (cell edge.ring edge.tailIndex).any Packet.eos

def bumpDepth (depth : Nat) (metrics : EdgeMetrics) : EdgeMetrics :=
  { metrics with queueDepth := depth, maxDepth := max metrics.maxDepth depth }

def pushLocked (packet : Packet) (edge : EdgeRing) : EdgeRing :=
  { edge with
    ring := edge.ring.set edge.endIndex (some packet)
    size := edge.size + 1
    metrics := bumpDepth (edge.size + 1)
      { edge.metrics with pushed := edge.metrics.pushed + 1 } }

/-- A refused push counts and leaves an active edge backpressured. -/
def refuse (edge : EdgeRing) : EdgeRing :=
  { edge with
    state := if edge.state = .active then .backpressured else edge.state
    metrics := { edge.metrics with wouldBlockCount := edge.metrics.wouldBlockCount + 1 } }

def countCancelled (edge : EdgeRing) : EdgeRing :=
  { edge with metrics :=
    { edge.metrics with cancelledCount := edge.metrics.cancelledCount + 1 } }

def countDrop (edge : EdgeRing) : EdgeRing :=
  { edge with metrics := { edge.metrics with dropCount := edge.metrics.dropCount + 1 } }

/-- The eviction scan: the first slot from `victim` on, among the remaining
ones, that holds no marker, and how many markers were passed. -/
def scan (edge : EdgeRing) : Nat → Nat → Nat → Nat × Nat
  | 0, victim, scanned => (victim, scanned)
  | remaining + 1, victim, scanned =>
    if (cell edge.ring victim).any Packet.eos then
      scan edge remaining (edge.next victim) (scanned + 1)
    else (victim, scanned)

/-- Takes the victim out; the packets behind it move up unless it is the head. -/
def evict (victim : Nat) (edge : EdgeRing) : EdgeRing :=
  if victim = edge.head then
    { edge with
      ring := edge.ring.set edge.head none
      head := edge.next edge.head
      size := edge.size - 1 }
  else
    { edge with
      ring := (closeGap edge.tailIndex edge.ring.length edge.ring victim).set edge.tailIndex none
      size := edge.size - 1 }

def push (packet : Packet) (edge : EdgeRing) : PushOutcome × EdgeRing :=
  if edge.shut then (.cancelled, edge.countCancelled)
  else if packet.eos && edge.tailHasEos then (.accepted, edge)
  else if edge.size < edge.ring.length then (.accepted, edge.pushLocked packet)
  else if packet.eos then (.wouldBlock, edge.refuse)
  else
    match edge.policy with
    | .dropNewest => (.droppedNewest, edge.countDrop)
    | .dropOldest =>
      let (victim, scanned) := edge.scan edge.size edge.head 0
      if scanned = edge.size then (.droppedNewest, edge.countDrop)
      else (.acceptedDroppedOldest, ((edge.evict victim).countDrop).pushLocked packet)
    | .block => (.wouldBlock, edge.refuse)

def injectEos (marker : Packet) (edge : EdgeRing) : PushOutcome × EdgeRing :=
  if edge.state = .retired then (.cancelled, edge)
  else if edge.tailHasEos then (.accepted, edge)
  else if edge.ring.length ≤ edge.size then (.wouldBlock, edge)
  else (.accepted, edge.pushLocked marker)

def pop (edge : EdgeRing) : Option Packet × EdgeRing :=
  if edge.size = 0 then (none, edge)
  else
    (cell edge.ring edge.head, { edge with
      ring := edge.ring.set edge.head none
      head := edge.next edge.head
      size := edge.size - 1
      metrics := { edge.metrics with
        popped := edge.metrics.popped + 1
        queueDepth := edge.size - 1 } })

def peek (edge : EdgeRing) : Option Packet :=
  if edge.size = 0 then none else cell edge.ring edge.head

def markDraining (edge : EdgeRing) : EdgeRing :=
  if edge.shut then edge else { edge with state := .draining }

def markRetired (fast : Bool) (edge : EdgeRing) : EdgeRing :=
  if fast then
    { edge with
      state := .retired
      ring := List.replicate edge.ring.length none
      head := 0
      size := 0
      metrics := { edge.metrics with queueDepth := 0 } }
  else { edge with state := .retired }

def call (edge : EdgeRing) : Call → Reply × EdgeRing
  | .push packet => (edge.push packet).map .outcome id
  | .injectEos marker => (edge.injectEos marker).map .outcome id
  | .pop => edge.pop.map .packet id
  | .peek => (.packet edge.peek, edge)
  | .markDraining => (.done, edge.markDraining)
  | .markRetired fast => (.done, edge.markRetired fast)

end EdgeRing

/-- The ring holds the queue, and its counters agree with the queue's history. -/
structure Stores (ring : EdgeRing) (edge : EdgeQueue) : Prop where
  policy : ring.policy = edge.policy
  state : ring.state = edge.state
  capacity : ring.ring.length = edge.capacity
  positive : 0 < edge.capacity
  small : edge.capacity ≤ 2 ^ 31
  head : ring.head < edge.capacity
  size : ring.size = edge.queue.length
  contents : window ring.ring ring.head ring.size = edge.queue.map some
  pushed : ring.metrics.pushed = .ofNat edge.entered.length
  popped : ring.metrics.popped = .ofNat edge.taken.length

/-- Between calls the depth metric is the length of the queue as well. -/
structure Represents (ring : EdgeRing) (edge : EdgeQueue) : Prop extends Stores ring edge where
  depth : ring.metrics.queueDepth = edge.queue.length

variable {ring : EdgeRing} {edge : EdgeQueue}

theorem Represents.created (policy : DropPolicy) {capacity : Nat} (atLeast : 1 ≤ capacity)
    (atMost : capacity ≤ 2 ^ 31) : Represents (.create policy capacity) { policy, capacity } where
  policy := rfl
  state := rfl
  capacity := by simp [EdgeRing.create, atLeast]
  positive := atLeast
  small := atMost
  head := atLeast
  size := rfl
  contents := rfl
  depth := rfl
  pushed := rfl
  popped := rfl

section Stored

variable (holds : Stores ring edge)
include holds

theorem Stores.shut : ring.shut = edge.shut := by
  simp only [EdgeRing.shut, EdgeQueue.shut, holds.state]

theorem Stores.endIndex (good : edge.Accounted) :
    ring.endIndex = (ring.head + ring.size) % ring.ring.length := by
  have bounded := good.bounded
  have small := holds.small
  have head := holds.head
  have size := holds.size
  rw [EdgeRing.endIndex, mod_eq_of_lt (by omega : ring.head + ring.size < 2 ^ 32)]

theorem Stores.tailIndex (good : edge.Accounted) {last : Nat} (occupied : ring.size = last + 1) :
    ring.tailIndex = (ring.head + last) % ring.ring.length := by
  have bounded := good.bounded
  have small := holds.small
  have head := holds.head
  have size := holds.size
  have sum : ring.head + ring.size + (2 ^ 32 - 1) = ring.head + last + 2 ^ 32 := by omega
  rw [EdgeRing.tailIndex, sum, add_mod_right, mod_eq_of_lt (by omega : ring.head + last < 2 ^ 32)]

theorem Stores.headIndex : (ring.head + 0) % ring.ring.length = ring.head := by
  rw [add_zero, holds.capacity, mod_eq_of_lt holds.head]

variable {packet : Packet}

theorem Stores.cell {offset : Nat} (queued : edge.queue[offset]? = some packet) :
    cell ring.ring (ring.head + offset) = some packet := by
  have below : offset < ring.size := by
    rw [holds.size]
    exact (List.getElem?_eq_some_iff.mp queued).1
  have read : (window ring.ring ring.head ring.size)[offset]? =
      some (RingWindows.cell ring.ring (ring.head + offset)) := by
    simp [window, below]
  rw [holds.contents, List.getElem?_map, queued, Option.map_some, Option.some_inj] at read
  exact read.symm

theorem Stores.first {rest : List Packet}
    (split : edge.queue = packet :: rest) : RingWindows.cell ring.ring ring.head = some packet := by
  have queued : edge.queue[0]? = some packet := by rw [split]; rfl
  exact holds.cell queued

theorem Stores.tailHasEos (good : edge.Accounted) : ring.tailHasEos = edge.tailHasEos := by
  rw [EdgeRing.tailHasEos, EdgeQueue.tailHasEos]
  rcases eq_nil_or_concat edge.queue with empty | ⟨older, last, split⟩
  · have none : ring.size = 0 := by simp [holds.size, empty]
    simp [none, empty]
  · have occupied : ring.size = older.length + 1 := by simp [holds.size, split]
    have queued : edge.queue[older.length]? = some last := by simp [split]
    rw [if_neg (by omega), holds.tailIndex good occupied, cell_mod, holds.cell queued]
    simp [split]

theorem Stores.pushLocked (good : edge.Accounted)
    (packet : Packet) (room : edge.queue.length < edge.capacity) :
    Represents (ring.pushLocked packet) (edge.enqueue packet) :=
  { holds with
    capacity := by simpa [EdgeRing.pushLocked, enqueue] using holds.capacity
    size := by simp [EdgeRing.pushLocked, enqueue, holds.size]
    contents := by
      have space : ring.size < ring.ring.length := by rw [holds.size, holds.capacity]; exact room
      simp only [EdgeRing.pushLocked, enqueue, holds.endIndex good,
        window_push ring.ring ring.head ring.size (some packet) space, holds.contents,
        map_append, map_cons, map_nil]
    depth := by
      simp [EdgeRing.pushLocked, EdgeRing.bumpDepth, enqueue, holds.size]
    pushed := by
      simp [EdgeRing.pushLocked, EdgeRing.bumpDepth, enqueue, holds.pushed, UInt64.ofNat_add] }

end Stored

theorem Represents.refuse (holds : Represents ring edge) : Represents ring.refuse edge.block := by
  unfold EdgeRing.refuse block
  rw [holds.state]
  split <;> exact { holds with state := rfl }

theorem Represents.countCancelled (holds : Represents ring edge) :
    Represents ring.countCancelled edge := { holds with }

theorem Represents.countDrop (holds : Represents ring edge) : Represents ring.countDrop edge :=
  { holds with }

theorem Stores.scan (holds : Stores ring edge) (rest : List Packet) :
    ∀ passed, edge.queue = passed ++ rest →
      ring.scan rest.length ((ring.head + passed.length) % ring.ring.length) passed.length =
        ((ring.head + (passed.length + (rest.takeWhile Packet.eos).length)) % ring.ring.length,
          passed.length + (rest.takeWhile Packet.eos).length) := by
  induction rest with
  | nil => simp [EdgeRing.scan]
  | cons packet rest step =>
    intro passed split
    have queued : edge.queue[passed.length]? = some packet := by simp [split]
    rw [length_cons, EdgeRing.scan, cell_mod, holds.cell queued, Option.any_some]
    by_cases marks : packet.eos = true
    · have advance : ring.next ((ring.head + passed.length) % ring.ring.length) =
          (ring.head + (passed ++ [packet]).length) % ring.ring.length := by
        rw [EdgeRing.next, mod_add_mod, length_append, length_singleton, add_assoc]
      have scanned := step (passed ++ [packet]) (by simp [split])
      rw [if_pos marks, advance]
      rw [length_append, length_singleton] at scanned ⊢
      rw [scanned, takeWhile_cons_of_pos marks, length_cons]
      simp only [add_assoc, add_comm 1]
    · rw [if_neg marks, takeWhile_cons_of_neg marks]
      simp

theorem Stores.behindHead (holds : Stores ring edge) (good : edge.Accounted) {rest : List Packet}
    (split : edge.queue = packet :: rest) :
    window (ring.ring.set ring.head none) (ring.next ring.head) (ring.size - 1) =
      rest.map some := by
  have bounded := good.bounded
  have capacity := holds.capacity
  have occupied : ring.size = rest.length + 1 := by rw [holds.size, split]; rfl
  have behind : window ring.ring (ring.head + 1) rest.length = rest.map some := by
    have whole := holds.contents
    rw [occupied, window_head, split] at whole
    exact (List.cons.inj whole).2
  have fits : rest.length < ring.ring.length := by
    rw [split, length_cons] at bounded
    omega
  have cleared := window_pop ring.ring ring.head rest.length fits
  have wrapped := window_mod (ring.ring.set ring.head none) (ring.head + 1) rest.length
  rw [capacity, mod_eq_of_lt holds.head, behind] at cleared
  rw [length_set] at wrapped
  rw [occupied, Nat.add_sub_cancel, EdgeRing.next, wrapped, cleared]

variable {newer : List Packet}

theorem Stores.behindVictim (holds : Stores ring edge) (good : edge.Accounted) {older : List Packet}
    {victim : Packet} (split : edge.queue = older ++ victim :: newer) :
    window ((closeGap ring.tailIndex ring.ring.length ring.ring
        ((ring.head + older.length) % ring.ring.length)).set ring.tailIndex none)
        ring.head (ring.size - 1) = (older ++ newer).map some := by
  have bounded := good.bounded
  have capacity := holds.capacity
  have occupied : ring.size = older.length + newer.length + 1 := by
    rw [holds.size, split, length_append, length_cons, add_assoc]
  have fits : older.length + newer.length + 1 ≤ ring.ring.length := by
    rw [← occupied, holds.size, capacity]
    exact bounded
  have closed := closeGap_window ring.ring ring.head (older.length + newer.length)
    ring.ring.length older.length fits (by omega) (by omega)
  rw [← occupied, holds.contents, split] at closed
  rw [holds.tailIndex good occupied, occupied, Nat.add_sub_cancel, window_set_outside, closed,
    eraseIdx_map, eraseIdx_append_of_length_le (Nat.le_refl _)]
  · simp
  · intro offset below meet
    rw [closeGap_length] at meet
    have equal := offset_unique meet (by omega) (by omega)
    omega

/-- Taking the victim out of the ring is taking it out of the queue; only the
depth metric waits for the push that follows. -/
theorem Stores.evict (holds : Stores ring edge) (good : edge.Accounted) {older : List Packet}
    {victim : Packet} (split : edge.queue = older ++ victim :: newer) :
    Stores (ring.evict ((ring.head + older.length) % ring.ring.length))
      { edge with queue := older ++ newer, evicted := edge.evicted ++ [victim] } := by
  have capacity := holds.capacity
  have occupied : ring.size = older.length + newer.length + 1 := by
    rw [holds.size, split, length_append, length_cons, add_assoc]
  rw [EdgeRing.evict]
  by_cases leading : older = []
  · subst leading
    rw [length_nil, if_pos holds.headIndex]
    refine { holds with capacity := ?_, head := ?_, size := ?_, contents := ?_ }
    · simpa using capacity
    · rw [EdgeRing.next, capacity]
      exact mod_lt _ holds.positive
    · simp [occupied]
    · exact holds.behindHead good split
  · have apart : (ring.head + older.length) % ring.ring.length ≠ ring.head := by
      intro meet
      have bounded := good.bounded
      rw [← holds.size] at bounded
      have same := meet.trans holds.headIndex.symm
      have zero : older.length = 0 := offset_unique same (by omega) (by omega)
      exact leading (eq_nil_of_length_eq_zero zero)
    rw [if_neg apart]
    refine { holds with capacity := ?_, size := ?_, contents := ?_ }
    · simpa using capacity
    · simp [occupied]
    · exact holds.behindVictim good split

section Represented

variable (holds : Represents ring edge)
include holds

theorem Represents.push (good : edge.Accounted) (packet : Packet) :
    (ring.push packet).1 = (edge.push packet).1 ∧
      Represents (ring.push packet).2 (edge.push packet).2 := by
  unfold EdgeRing.push EdgeQueue.push
  rw [holds.shut, holds.tailHasEos good, holds.size, holds.capacity, holds.policy]
  split_ifs with shut merged room marker
  · exact ⟨rfl, holds.countCancelled⟩
  · exact ⟨rfl, holds⟩
  · exact ⟨rfl, holds.pushLocked good packet room⟩
  · exact ⟨rfl, holds.refuse⟩
  cases edge.policy with
  | dropNewest => exact ⟨rfl, holds.countDrop⟩
  | block => exact ⟨rfl, holds.refuse⟩
  | dropOldest =>
    have scanned := holds.scan edge.queue [] rfl
    simp only [length_nil, zero_add, holds.headIndex] at scanned
    simp only [scanned]
    cases evicts : edge.evictOldest with
    | none =>
      have markers := evictOldest_none.mp evicts
      rw [List.takeWhile_eq_self_iff.mpr markers, if_pos rfl]
      exact ⟨rfl, holds.countDrop⟩
    | some roomy =>
      obtain ⟨older, victim, newer, split, leading, unmarked, rfl⟩ := evictOldest_some evicts
      obtain ⟨left, space⟩ := good.evict split unmarked
      have passed : edge.queue.takeWhile Packet.eos = older := by
        rw [split, takeWhile_append_of_pos leading]
        simp [unmarked]
      have found : older.length ≠ edge.queue.length := by simp [split]
      rw [passed, if_neg found]
      have evicted := holds.evict good split
      have counted : Stores
          (ring.evict ((ring.head + older.length) % ring.ring.length)).countDrop
          { edge with queue := older ++ newer, evicted := edge.evicted ++ [victim] } :=
        { evicted with }
      exact ⟨rfl, counted.pushLocked left packet space⟩

theorem Represents.injectEos (good : edge.Accounted) (marker : Packet) :
    (ring.injectEos marker).1 = (edge.injectEos marker).1 ∧
      Represents (ring.injectEos marker).2 (edge.injectEos marker).2 := by
  unfold EdgeRing.injectEos EdgeQueue.injectEos
  rw [holds.state, holds.tailHasEos good, holds.size, holds.capacity]
  split_ifs with retired merged full room room
  · exact ⟨rfl, holds⟩
  · exact ⟨rfl, holds⟩
  · omega
  · exact ⟨rfl, holds⟩
  · exact ⟨rfl, holds.pushLocked good marker room⟩
  · omega

theorem Represents.pop (good : edge.Accounted) :
    ring.pop.1 = edge.pop.1 ∧ Represents ring.pop.2 edge.pop.2 := by
  unfold EdgeRing.pop EdgeQueue.pop
  cases split : edge.queue with
  | nil =>
    have empty : ring.size = 0 := by rw [holds.size, split]; rfl
    rw [if_pos empty]
    exact ⟨rfl, holds⟩
  | cons packet rest =>
    have occupied : ring.size = rest.length + 1 := by rw [holds.size, split]; rfl
    rw [if_neg (by omega)]
    refine ⟨holds.first split, { holds.toStores with
      capacity := ?_, head := ?_, size := ?_, contents := ?_, popped := ?_, depth := ?_ }⟩
    · simpa using holds.capacity
    · rw [EdgeRing.next, holds.capacity]
      exact mod_lt _ holds.positive
    · simp [occupied]
    · exact holds.behindHead good split
    · simp [holds.popped]
    · simp [occupied]

theorem Represents.peek : ring.peek = edge.peek := by
  unfold EdgeRing.peek EdgeQueue.peek
  cases split : edge.queue with
  | nil =>
    have empty : ring.size = 0 := by rw [holds.size, split]; rfl
    rw [if_pos empty]
    rfl
  | cons packet rest =>
    have occupied : ring.size = rest.length + 1 := by rw [holds.size, split]; rfl
    rw [if_neg (by omega), holds.first split]
    rfl

theorem Represents.markDraining : Represents ring.markDraining edge.markDraining := by
  unfold EdgeRing.markDraining EdgeQueue.markDraining
  rw [holds.shut]
  split
  · exact holds
  · exact { holds with state := rfl }

theorem Represents.markRetired (fast : Bool) :
    Represents (ring.markRetired fast) (edge.markRetired fast) := by
  cases fast with
  | false => exact { holds with state := rfl }
  | true =>
    refine { holds with
      state := rfl, capacity := ?_, head := holds.positive, size := rfl, contents := rfl,
      depth := rfl }
    simpa [EdgeRing.markRetired, EdgeQueue.markRetired] using holds.capacity

theorem Represents.call (good : edge.Accounted) (call : Call) :
    (ring.call call).1 = (edge.call call).1 ∧ Represents (ring.call call).2 (edge.call call).2 := by
  cases call with
  | push packet =>
    obtain ⟨same, after⟩ := holds.push good packet
    exact ⟨congrArg Reply.outcome same, after⟩
  | injectEos marker =>
    obtain ⟨same, after⟩ := holds.injectEos good marker
    exact ⟨congrArg Reply.outcome same, after⟩
  | pop =>
    obtain ⟨same, after⟩ := holds.pop good
    exact ⟨congrArg Reply.packet same, after⟩
  | peek => exact ⟨congrArg Reply.packet holds.peek, holds⟩
  | markDraining => exact ⟨rfl, holds.markDraining⟩
  | markRetired fast => exact ⟨rfl, holds.markRetired fast⟩

end Represented

def replay {Channel : Type} (call : Channel → Call → Reply × Channel) :
    Channel → List Call → List Reply × Channel
  | channel, [] => ([], channel)
  | channel, first :: rest =>
    let (reply, channel) := call channel first
    (replay call channel rest).map (reply :: ·) id

theorem Represents.replay (holds : Represents ring edge) (good : edge.Accounted)
    (calls : List Call) :
    (replay EdgeRing.call ring calls).1 = (replay EdgeQueue.call edge calls).1 ∧
      Represents (replay EdgeRing.call ring calls).2 (replay EdgeQueue.call edge calls).2 ∧
      (replay EdgeQueue.call edge calls).2.Accounted := by
  induction calls generalizing ring edge with
  | nil => exact ⟨rfl, holds, good⟩
  | cons call calls step =>
    obtain ⟨same, after⟩ := holds.call good call
    obtain ⟨replies, final, accounted⟩ := step after (good.call call)
    refine ⟨?_, final, accounted⟩
    simp only [EdgeRings.replay, Prod.map_fst, same, replies]

theorem replay_capacity (edge : EdgeQueue) (calls : List Call) :
    (replay call edge calls).2.capacity = edge.capacity := by
  induction calls generalizing edge with
  | nil => rfl
  | cons call calls step => exact (step _).trans (edge.call_capacity call)

/-- `EdgeChannel` is a bounded FIFO list under every sequence of calls: it gives
the list's replies, holds the list's packets, and each further call keeps to the
list's rules. -/
theorem channel_is_bounded_fifo (policy : DropPolicy) (capacity : Nat)
    (atLeast : 1 ≤ capacity) (atMost : capacity ≤ 2 ^ 31) (calls : List Call) :
    let channel := (replay EdgeRing.call (.create policy capacity) calls).2
    let fifo := (replay call { policy, capacity } calls).2
    (replay EdgeRing.call (.create policy capacity) calls).1 =
        (replay call { policy, capacity } calls).1 ∧
      window channel.ring channel.head channel.size = fifo.queue.map some ∧
      channel.state = fifo.state ∧
      channel.size = fifo.queue.length ∧
      channel.metrics.queueDepth = fifo.queue.length ∧
      fifo.queue.length ≤ capacity ∧
      (fifo.taken ++ fifo.queue).Sublist fifo.entered ∧
      fifo.entered.Perm (fifo.taken ++ fifo.queue ++ fifo.evicted ++ fifo.cleared) ∧
      channel.metrics.pushed = channel.metrics.popped +
        .ofNat (channel.metrics.queueDepth + fifo.evicted.length + fifo.cleared.length) ∧
      ∀ call, fifo.Lawful call ∧ (channel.call call).1 = (fifo.call call).1 ∧
        Represents (channel.call call).2 (fifo.call call).2 := by
  intro channel fifo
  obtain ⟨replies, final, accounted⟩ :=
    (Represents.created policy atLeast atMost).replay (EdgeQueue.accounted_start _ _) calls
  have bounded : fifo.queue.length ≤ fifo.capacity := accounted.bounded
  rw [replay_capacity] at bounded
  refine ⟨replies, final.contents, final.state, final.size, final.depth, bounded,
    accounted.ordered, accounted.accounted, ?_, ?_⟩
  · have total := accounted.accounted.length_eq
    simp only [length_append] at total
    rw [final.pushed, final.popped, final.depth, total]
    simp only [UInt64.ofNat_add, UInt64.add_assoc]
    rfl
  · intro call
    exact ⟨fifo.call_lawful call, final.call accounted call⟩

/-- A full ring of two whose head is a marker evicts the packet behind it. -/
theorem channel_is_bounded_fifo_evicting : 1 ≤ 2 ∧ 2 ≤ 2 ^ 31 ∧
      (replay EdgeRing.call (.create .dropOldest 2)
        [.push ⟨0, 0, true, false⟩, .push ⟨1, 0, false, false⟩, .push ⟨2, 0, false, false⟩]).1 =
      [.outcome .accepted, .outcome .accepted, .outcome .acceptedDroppedOldest] :=
  ⟨by decide, by decide,
    (channel_is_bounded_fifo .dropOldest 2 (by decide) (by decide)
      [.push ⟨0, 0, true, false⟩, .push ⟨1, 0, false, false⟩,
        .push ⟨2, 0, false, false⟩]).1.trans (by decide)⟩

end GraphEngine.EdgeRings
