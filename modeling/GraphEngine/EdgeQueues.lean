import GraphEngine.GraphSpecs
import Mathlib.Data.List.Perm.Lattice

/-!
An edge's queue as a bounded list of packets, with its state and its history:
what entered the queue, what was taken by the consumer, what was evicted by a
newer packet and what a fast retire cleared. The other modules work on this
view; `EdgeRings` relates it to the ring buffer of edge_channel.cpp.
-/

namespace GraphEngine.EdgeQueues

open GraphSpecs List

inductive EdgeState where
  | active | backpressured | draining | retired
  deriving DecidableEq

/-- The header fields the edges and the input bindings read. -/
structure Packet where
  seq : Nat
  pts : Int := 0
  eos : Bool := false
  event : Bool := false
  deriving DecidableEq

def Packet.isData (packet : Packet) : Bool := !packet.eos && !packet.event

inductive PushOutcome where
  | accepted | acceptedDroppedOldest | droppedNewest | wouldBlock | cancelled
  deriving DecidableEq

structure EdgeQueue where
  policy : DropPolicy
  capacity : Nat
  state : EdgeState := .active
  queue : List Packet := []
  entered : List Packet := []
  taken : List Packet := []
  evicted : List Packet := []
  cleared : List Packet := []
  deriving DecidableEq

namespace EdgeQueue

def shut (edge : EdgeQueue) : Bool := edge.state = .draining || edge.state = .retired

def full (edge : EdgeQueue) : Bool := edge.capacity ≤ edge.queue.length

def tailHasEos (edge : EdgeQueue) : Bool := edge.queue.getLast?.any Packet.eos

def enqueue (packet : Packet) (edge : EdgeQueue) : EdgeQueue :=
  { edge with queue := edge.queue ++ [packet], entered := edge.entered ++ [packet] }

def block (edge : EdgeQueue) : EdgeQueue :=
  if edge.state = .active then { edge with state := .backpressured } else edge

def unblock (edge : EdgeQueue) : EdgeQueue :=
  if edge.state = .backpressured then { edge with state := .active } else edge

def evictOldest (edge : EdgeQueue) : Option EdgeQueue :=
  (edge.queue.find? fun packet => !packet.eos).map fun victim =>
    { edge with
      queue := edge.queue.eraseP fun packet => !packet.eos
      evicted := edge.evicted ++ [victim] }

def push (packet : Packet) (edge : EdgeQueue) : PushOutcome × EdgeQueue :=
  if edge.shut then (.cancelled, edge)
  -- A marker already at the tail is not duplicated.
  else if packet.eos && edge.tailHasEos then (.accepted, edge)
  else if edge.queue.length < edge.capacity then (.accepted, edge.enqueue packet)
  -- A marker is never dropped, whatever the policy.
  else if packet.eos then (.wouldBlock, edge.block)
  else
    match edge.policy with
    | .dropNewest => (.droppedNewest, edge)
    | .dropOldest =>
      match edge.evictOldest with
      | none => (.droppedNewest, edge)
      | some roomy => (.acceptedDroppedOldest, roomy.enqueue packet)
    | .block => (.wouldBlock, edge.block)

/-- Accepted even while draining. -/
def injectEos (marker : Packet) (edge : EdgeQueue) : PushOutcome × EdgeQueue :=
  if edge.state = .retired then (.cancelled, edge)
  else if edge.tailHasEos then (.accepted, edge)
  else if edge.queue.length < edge.capacity then (.accepted, edge.enqueue marker)
  else (.wouldBlock, edge)

def pop (edge : EdgeQueue) : Option Packet × EdgeQueue :=
  match edge.queue with
  | [] => (none, edge)
  | packet :: rest => (some packet, { edge with queue := rest, taken := edge.taken ++ [packet] })

def peek (edge : EdgeQueue) : Option Packet := edge.queue.head?

def markDraining (edge : EdgeQueue) : EdgeQueue :=
  if edge.shut then edge else { edge with state := .draining }

def markRetired (fast : Bool) (edge : EdgeQueue) : EdgeQueue :=
  if fast then
    { edge with state := .retired, queue := [], cleared := edge.cleared ++ edge.queue }
  else { edge with state := .retired }

end EdgeQueue

inductive Call where
  | push (packet : Packet)
  | injectEos (marker : Packet)
  | pop
  | peek
  | markDraining
  | markRetired (fast : Bool)
  deriving DecidableEq

inductive Reply where
  | outcome (outcome : PushOutcome)
  | packet (packet : Option Packet)
  | done
  deriving DecidableEq

namespace EdgeQueue

def call (edge : EdgeQueue) : Call → Reply × EdgeQueue
  | .push packet => (edge.push packet).map .outcome id
  | .injectEos marker => (edge.injectEos marker).map .outcome id
  | .pop => edge.pop.map .packet id
  | .peek => (.packet edge.peek, edge)
  | .markDraining => (.done, edge.markDraining)
  | .markRetired fast => (.done, edge.markRetired fast)

def rank (edge : EdgeQueue) : Nat :=
  match edge.state with
  | .active | .backpressured => 0
  | .draining => 1
  | .retired => 2

structure Accounted (edge : EdgeQueue) : Prop where
  bounded : edge.queue.length ≤ edge.capacity
  ordered : (edge.taken ++ edge.queue).Sublist edge.entered
  accounted : edge.entered.Perm (edge.taken ++ edge.queue ++ edge.evicted ++ edge.cleared)
  unmarked : ∀ packet ∈ edge.evicted, packet.eos = false

theorem accounted_start (policy : DropPolicy) (capacity : Nat) :
    Accounted { policy, capacity } where
  bounded := Nat.zero_le _
  ordered := .slnil
  accounted := .nil
  unmarked := by simp

theorem Accounted.enqueue {edge : EdgeQueue} (good : edge.Accounted) (packet : Packet)
    (room : edge.queue.length < edge.capacity) : (edge.enqueue packet).Accounted where
  bounded := by
    simp only [EdgeQueue.enqueue, length_append, length_singleton]
    omega
  ordered := by
    simpa [EdgeQueue.enqueue] using good.ordered.append (List.Sublist.refl [packet])
  accounted := by
    rw [perm_iff_count]
    intro each
    have before := good.accounted.count_eq each
    simp only [EdgeQueue.enqueue, count_append] at before ⊢
    omega
  unmarked := good.unmarked

theorem evictOldest_some {edge roomy : EdgeQueue} (evicts : edge.evictOldest = some roomy) :
    ∃ older victim newer, edge.queue = older ++ victim :: newer ∧
      (∀ packet ∈ older, packet.eos = true) ∧ victim.eos = false ∧
      roomy = { edge with queue := older ++ newer, evicted := edge.evicted ++ [victim] } := by
  simp only [evictOldest, Option.map_eq_some_iff, List.find?_eq_some_iff_append] at evicts
  obtain ⟨victim, ⟨unmarked, older, newer, split, markers⟩, rfl⟩ := evicts
  have leading : ∀ packet ∈ older, packet.eos = true := by simpa using markers
  have erased : edge.queue.eraseP (fun packet => !packet.eos) = older ++ newer := by
    rw [split, eraseP_append_right _ (by simpa using leading)]
    simp [unmarked]
  exact ⟨older, victim, newer, split, leading, by simpa using unmarked, by rw [erased]⟩

theorem evictOldest_none {edge : EdgeQueue} :
    edge.evictOldest = none ↔ ∀ packet ∈ edge.queue, packet.eos = true := by
  simp [evictOldest]

inductive Pushed (edge : EdgeQueue) (packet : Packet) : PushOutcome × EdgeQueue → Prop where
  | cancelled (shut : edge.shut = true) : Pushed edge packet (.cancelled, edge)
  | merged (unshut : edge.shut = false) (marks : packet.eos = true)
      (tail : edge.tailHasEos = true) : Pushed edge packet (.accepted, edge)
  | stored (unshut : edge.shut = false) (room : edge.queue.length < edge.capacity) :
      Pushed edge packet (.accepted, edge.enqueue packet)
  | refused (unshut : edge.shut = false) (full : edge.capacity ≤ edge.queue.length)
      (waits : packet.eos = true ∨ edge.policy = .block) :
      Pushed edge packet (.wouldBlock, edge.block)
  | dropped (unshut : edge.shut = false) (full : edge.capacity ≤ edge.queue.length)
      (unmarked : packet.eos = false) (drops : edge.policy ≠ .block) :
      Pushed edge packet (.droppedNewest, edge)
  | evicted (unshut : edge.shut = false) (full : edge.capacity ≤ edge.queue.length)
      (unmarked : packet.eos = false) (drops : edge.policy = .dropOldest)
      {older newer : List Packet} {victim : Packet}
      (split : edge.queue = older ++ victim :: newer)
      (leading : ∀ marker ∈ older, marker.eos = true) (loses : victim.eos = false) :
      Pushed edge packet (.acceptedDroppedOldest, { edge with
        queue := older ++ newer ++ [packet]
        entered := edge.entered ++ [packet]
        evicted := edge.evicted ++ [victim] })

theorem pushed (edge : EdgeQueue) (packet : Packet) : Pushed edge packet (edge.push packet) := by
  unfold push
  split_ifs with shut merged room marks
  · exact .cancelled shut
  · rw [Bool.and_eq_true] at merged
    exact .merged (by simpa using shut) merged.1 merged.2
  · exact .stored (by simpa using shut) room
  · exact .refused (by simpa using shut) (by omega) (.inl marks)
  cases policy : edge.policy with
  | dropNewest =>
    exact .dropped (by simpa using shut) (by omega) (by simpa using marks) (by simp [policy])
  | block => exact .refused (by simpa using shut) (by omega) (.inr policy)
  | dropOldest =>
    cases evicts : edge.evictOldest with
    | none =>
      exact .dropped (by simpa using shut) (by omega) (by simpa using marks)
        (by simp [policy])
    | some roomy =>
      obtain ⟨older, victim, newer, split, leading, unmarked, rfl⟩ := evictOldest_some evicts
      exact .evicted (by simpa using shut) (by omega) (by simpa using marks) policy split
        leading unmarked

section Kept

variable {edge : EdgeQueue} (good : edge.Accounted)
include good

theorem Accounted.evict {older newer : List Packet} {victim : Packet}
    (split : edge.queue = older ++ victim :: newer) (unmarked : victim.eos = false) :
    Accounted { edge with queue := older ++ newer, evicted := edge.evicted ++ [victim] } ∧
      (older ++ newer).length < edge.capacity := by
  have bounded := good.bounded
  simp only [split, length_append, length_cons] at bounded
  refine ⟨⟨?_, ?_, ?_, ?_⟩, ?_⟩
  · simp only [length_append]
    omega
  · have kept : (older ++ newer).Sublist edge.queue := by
      rw [split]
      exact (List.Sublist.refl older).append (sublist_cons_self victim newer)
    exact ((List.Sublist.refl edge.taken).append kept).trans good.ordered
  · rw [perm_iff_count]
    intro each
    have before := good.accounted.count_eq each
    simp only [split, count_append, count_cons, count_nil] at before ⊢
    omega
  · refine List.forall_mem_append.mpr ⟨good.unmarked, List.forall_mem_singleton.mpr ?_⟩
    exact unmarked
  · simp only [length_append]
    omega

theorem Accounted.block : edge.block.Accounted := by
  unfold EdgeQueue.block
  split
  · exact { good with }
  · exact good

theorem Accounted.push (packet : Packet) : (edge.push packet).2.Accounted := by
  have step := edge.pushed packet
  generalize edge.push packet = result at step ⊢
  cases step with
  | cancelled | merged | dropped => exact good
  | stored _ room => exact good.enqueue packet room
  | refused => exact good.block
  | evicted _ _ _ _ split _ unmarked =>
    obtain ⟨left, space⟩ := good.evict split unmarked
    exact left.enqueue packet space

theorem Accounted.injectEos (marker : Packet) : (edge.injectEos marker).2.Accounted := by
  unfold EdgeQueue.injectEos
  split_ifs with retired merged room
  · exact good
  · exact good
  · exact good.enqueue marker room
  · exact good

theorem Accounted.pop : edge.pop.2.Accounted := by
  unfold EdgeQueue.pop
  split
  case h_1 => exact good
  case h_2 packet rest split =>
    have bounded := good.bounded
    have ordered := good.ordered
    have accounted := good.accounted
    simp only [split] at bounded ordered accounted
    refine ⟨Nat.le_of_succ_le bounded, by simpa using ordered, ?_, good.unmarked⟩
    simpa using accounted

theorem Accounted.markDraining : edge.markDraining.Accounted := by
  unfold EdgeQueue.markDraining
  split
  · exact good
  · exact { good with }

theorem Accounted.markRetired (fast : Bool) : (edge.markRetired fast).Accounted := by
  cases fast with
  | false => exact { good with }
  | true =>
    refine ⟨Nat.zero_le _, ?_, ?_, good.unmarked⟩
    · have shorter := sublist_append_left edge.taken edge.queue
      simpa [EdgeQueue.markRetired] using shorter.trans good.ordered
    · rw [perm_iff_count]
      intro each
      have before := good.accounted.count_eq each
      simp only [EdgeQueue.markRetired, if_true, count_append, count_nil] at before ⊢
      omega

theorem Accounted.call (call : Call) : (edge.call call).2.Accounted := by
  cases call with
  | push packet => exact good.push packet
  | injectEos marker => exact good.injectEos marker
  | pop => exact good.pop
  | peek => exact good
  | markDraining => exact good.markDraining
  | markRetired fast => exact good.markRetired fast

end Kept

def markers (edge : EdgeQueue) : List Packet := edge.queue.filter Packet.eos

structure Lawful (edge : EdgeQueue) (call : Call) : Prop where
  /-- An edge is active or backpressured, then draining, then retired for good. -/
  progress : edge.rank ≤ (edge.call call).2.rank
  evicts : ∀ packet, call = .push packet →
    (edge.call call).1 = .outcome .acceptedDroppedOldest →
    ∃ older victim newer, edge.queue = older ++ victim :: newer ∧
      (∀ leading ∈ older, leading.eos = true) ∧ victim.eos = false ∧
      (edge.call call).2.queue = older ++ newer ++ [packet]
  keepsMarkers : call ≠ .pop → call ≠ .markRetired true →
    edge.markers <+: (edge.call call).2.markers
  storesMarker : ∀ marker, call = .push marker ∨ call = .injectEos marker →
    marker.eos = true → (edge.call call).1 = .outcome .accepted →
    (edge.call call).2.tailHasEos = true
  refusesWhenShut : ∀ packet, call = .push packet → edge.shut = true →
    edge.call call = (.outcome .cancelled, edge)

theorem push_shut {edge : EdgeQueue} (packet : Packet) (shut : edge.shut = true) :
    edge.push packet = (.cancelled, edge) := by
  simp [push, shut]

variable (edge : EdgeQueue)
include edge
variable {marker : Packet}


theorem block_rank : edge.block.rank = edge.rank := by
  unfold block
  split
  next active => simp [rank, active]
  next => rfl

theorem block_queue : edge.block.queue = edge.queue := by
  unfold block
  split <;> rfl

theorem push_rank (packet : Packet) : (edge.push packet).2.rank = edge.rank := by
  have step := edge.pushed packet
  generalize edge.push packet = result at step ⊢
  cases step with
  | refused => exact block_rank edge
  | cancelled | merged | stored | dropped | evicted => rfl

theorem enqueue_markers (packet : Packet) : edge.markers <+: (edge.enqueue packet).markers := by
  simp [markers, enqueue]

theorem push_markers (packet : Packet) : edge.markers <+: (edge.push packet).2.markers := by
  have step := edge.pushed packet
  generalize edge.push packet = result at step ⊢
  cases step with
  | cancelled | merged | dropped => exact prefix_rfl
  | stored => exact enqueue_markers edge packet
  | refused => simp only [markers, block_queue, prefix_rfl]
  | evicted _ _ _ _ split _ unmarked => simp [markers, split, unmarked]

theorem enqueue_tail (marks : marker.eos = true) : (edge.enqueue marker).tailHasEos = true := by
  simp [tailHasEos, enqueue, marks]

theorem push_stores (marks : marker.eos = true) (accepted : (edge.push marker).1 = .accepted) :
    (edge.push marker).2.tailHasEos = true := by
  have step := edge.pushed marker
  generalize edge.push marker = result at step accepted ⊢
  cases step with
  | merged _ _ tail => exact tail
  | stored => exact enqueue_tail edge marks
  | cancelled | refused | dropped | evicted => simp at accepted

theorem injectEos_stores (marks : marker.eos = true)
    (accepted : (edge.injectEos marker).1 = .accepted) :
    (edge.injectEos marker).2.tailHasEos = true := by
  revert accepted
  unfold injectEos
  split_ifs with retired merged
  · simp
  · exact fun _ => merged
  · exact fun _ => enqueue_tail edge marks
  · simp

theorem push_evicts (packet : Packet) (evicted : (edge.push packet).1 = .acceptedDroppedOldest) :
    ∃ older victim newer, edge.queue = older ++ victim :: newer ∧
      (∀ leading ∈ older, leading.eos = true) ∧ victim.eos = false ∧
      (edge.push packet).2.queue = older ++ newer ++ [packet] := by
  have step := edge.pushed packet
  generalize edge.push packet = result at step evicted ⊢
  cases step with
  | evicted _ _ _ _ split leading unmarked =>
    exact ⟨_, _, _, split, leading, unmarked, rfl⟩
  | cancelled | merged | stored | refused | dropped => simp at evicted

theorem injectEos_markers (marker : Packet) :
    edge.markers <+: (edge.injectEos marker).2.markers := by
  unfold injectEos
  split_ifs
  · exact prefix_rfl
  · exact prefix_rfl
  · exact enqueue_markers edge marker
  · exact prefix_rfl

theorem call_rank (call : Call) : edge.rank ≤ (edge.call call).2.rank := by
  cases call with
  | push packet => exact Nat.le_of_eq (push_rank edge packet).symm
  | injectEos marker =>
    simp only [call, injectEos]
    split_ifs <;> exact Nat.le_refl _
  | pop =>
    simp only [call, pop]
    split <;> exact Nat.le_refl _
  | peek => exact Nat.le_refl _
  | markDraining =>
    cases state : edge.state <;>
      simp [call, markDraining, shut, rank, state]
  | markRetired fast =>
    cases state : edge.state <;> cases fast <;>
      simp [call, markRetired, rank, state]

theorem block_capacity : edge.block.capacity = edge.capacity := by
  unfold block
  split <;> rfl

theorem push_capacity (packet : Packet) : (edge.push packet).2.capacity = edge.capacity := by
  have step := edge.pushed packet
  generalize edge.push packet = result at step ⊢
  cases step with
  | refused => exact block_capacity edge
  | cancelled | merged | stored | dropped | evicted => rfl

theorem call_capacity (call : Call) : (edge.call call).2.capacity = edge.capacity := by
  cases call with
  | push packet => exact push_capacity edge packet
  | injectEos marker =>
    simp only [call, injectEos]
    split_ifs <;> rfl
  | pop =>
    simp only [call, pop]
    split <;> rfl
  | peek => rfl
  | markDraining =>
    simp only [call, markDraining]
    split <;> rfl
  | markRetired fast => cases fast <;> rfl

theorem call_lawful (call : Call) : edge.Lawful call where
  progress := call_rank edge call
  evicts := by
    rintro packet rfl evicted
    exact push_evicts edge packet (by simpa [call] using evicted)
  keepsMarkers := by
    intro notPop notFast
    cases call with
    | push packet => exact push_markers edge packet
    | injectEos marker => exact injectEos_markers edge marker
    | pop => exact absurd rfl notPop
    | peek => exact prefix_rfl
    | markDraining =>
      simp only [call, markDraining]
      split <;> exact prefix_rfl
    | markRetired fast =>
      cases fast with
      | true => exact absurd rfl notFast
      | false => exact prefix_rfl
  storesMarker := by
    rintro marker (rfl | rfl) marks accepted
    · exact push_stores edge marks (by simpa [call] using accepted)
    · exact injectEos_stores edge marks (by simpa [call] using accepted)
  refusesWhenShut := by
    rintro packet rfl shut
    simp [call, push_shut packet shut]

omit edge

end EdgeQueue

end GraphEngine.EdgeQueues
