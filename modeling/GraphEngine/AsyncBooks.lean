import GraphEngine.AsyncRuntimes
import Mathlib.Data.List.Perm.Subperm
import Mathlib.Algebra.Order.Group.Multiset

/-!
The books of the asynchronous runtime. Every accepted request is in the table, in the
hands of a thread, or retired, and is counted by its node until then; every event is in
the queue, in the hands of the consumer, the answer to a request, or an orphan.
-/

namespace GraphEngine.AsyncBooks

open NodeRuntimes AsyncRuntimes
open List hiding beq_eq_decide

/-- What threads hold: a request of a node that is begun, its number, a place in the
count, a request taken out of the table by a detach, an event taken out of the queue, and
the consumer's mutex. While outputs are pushed the mutex names the requests they are
for. -/
inductive Token where
  | begun (n : NodeRef)
  | numbered (id : Nat)
  | counted
  | dropped (request : Request)
  | event (ticket : Nat)
  | pump (pins : List (NodeRef × Nat))
  | delivering (request : Request)
  deriving DecidableEq

namespace Token

def holds (request : Request) : Token → Bool
  | .dropped other | .delivering other => other = request
  | .begun _ | .numbered _ | .counted | .event _ | .pump _ => false

def isPump : Token → Bool
  | .pump _ | .delivering _ => true
  | .begun _ | .numbered _ | .counted | .dropped _ | .event _ => false

end Token

end GraphEngine.AsyncBooks

variable {entry : Entry}

namespace GraphEngine.AsyncRuntimes.Runtime

def requests (runtime : Runtime) : List Request := runtime.inFlight.map Entry.toRequest

variable {runtime : Runtime}

theorem find_mem {id : Nat} (found : runtime.find id = some entry) :
    entry ∈ runtime.inFlight ∧ entry.id = id :=
  ⟨List.mem_of_find?_eq_some found, by simpa using List.find?_some found⟩

theorem find_isSome (inside : entry ∈ runtime.inFlight) :
    (runtime.find entry.id).isSome = true := by
  rw [find, List.find?_isSome]
  exact ⟨entry, inside, by simp⟩

theorem mem_requests (inside : entry ∈ runtime.inFlight) : entry.toRequest ∈ runtime.requests :=
  List.mem_map_of_mem inside

@[simp] theorem requests_modifyEntry {id : Nat} {change : Entry → Entry}
    (same : ∀ entry, (change entry).toRequest = entry.toRequest) :
    (runtime.modifyEntry id change).requests = runtime.requests := by
  simp only [requests, modifyEntry, List.map_map]
  apply List.map_congr_left
  intro entry _
  simp only [Function.comp_apply]
  split
  · exact same entry
  · rfl

theorem requests_accept (runtime : Runtime) (request : Request) :
    (runtime.accept request).requests.Perm (request :: runtime.requests) :=
  (List.perm_orderedInsert _ _ _).map Entry.toRequest

structure Ready (runtime : Runtime) (key : ReorderKey) (entry : Entry) : Prop where
  free : runtime.isBlocked key = false
  head : (runtime.reorder key).head? = some entry.id
  inside : entry ∈ runtime.inFlight
  done : entry.done = true

theorem readyHead_ready {key : ReorderKey} (found : runtime.readyHead key = some entry) :
    Ready runtime key entry := by
  unfold readyHead at found
  split at found
  · cases found
  rename_i free
  obtain ⟨located, done⟩ := Option.filter_eq_some_iff.mp found
  obtain ⟨id, head, located⟩ := Option.bind_eq_some_iff.mp located
  obtain ⟨inside, same⟩ := find_mem located
  exact ⟨by simpa using free, by rw [head, same], inside, done⟩

theorem takeReady_cases (runtime : Runtime) : runtime.takeReady = (runtime.skipDropped, none) ∨
    ∃ key entry, Ready runtime.skipDropped key entry ∧
      runtime.takeReady = (runtime.skipDropped.take key entry, some entry) := by
  simp only [takeReady]
  cases found : runtime.skipDropped.nextReady with
  | none => exact .inl rfl
  | some result =>
    obtain ⟨key, _, located⟩ := Option.bind_eq_some_iff.mp found
    obtain ⟨entry, ready, rfl⟩ := Option.map_eq_some_iff.mp located
    exact .inr ⟨key, entry, readyHead_ready ready, rfl⟩

theorem requests_answer (runtime : Runtime) (event : CompletionEvent) (entry : Entry) :
    (runtime.answer event entry).requests = runtime.requests :=
  requests_modifyEntry fun _ => rfl

theorem requests_take (runtime : Runtime) (key : ReorderKey) (entry : Entry) :
    (runtime.take key entry).requests =
      runtime.requests.filter fun request => request.id ≠ entry.id := by
  simp [requests, take, List.filter_map, Function.comp_def]

theorem count_requests_take (runtime : Runtime) (key : ReorderKey) (entry : Entry)
    (request : Request) : (runtime.take key entry).requests.count request =
      if request.id = entry.id then 0 else runtime.requests.count request := by
  rw [requests_take]
  split
  · next same => exact List.count_eq_zero.mpr (by simp [same])
  · next other => exact List.count_filter (by simpa using other)

theorem requests_detach (runtime : Runtime) (session : Nat) : runtime.requests.Perm
    ((runtime.detach session).2.map Entry.toRequest ++ (runtime.detach session).1.requests) := by
  unfold detach
  split
  · rfl
  simp only [requests]
  rw [← List.map_append]
  refine List.Perm.map _ ?_
  simpa using (List.filter_append_perm (fun entry : Entry => entry.session = session) _).symm

end GraphEngine.AsyncRuntimes.Runtime

namespace GraphEngine.AsyncBooks

open NodeRuntimes AsyncRuntimes
open List hiding beq_eq_decide

structure Tally where
  begun : NodeRef → ℕ
  numbered : Nat → ℕ
  counted : ℕ
  held : Request → ℕ
  event : Nat → ℕ
  pump : ℕ

def tally (share : Multiset Token) : Tally where
  begun n := share.count (.begun n)
  numbered id := share.count (.numbered id)
  counted := share.count .counted
  held request := share.countP fun token => token.holds request
  event ticket := share.count (.event ticket)
  pump := share.countP fun token => token.isPump

section Tally

variable (share : Multiset Token)

@[simp] def Tally.add (tally : Tally) : Token → Tally
  | .begun n => { tally with begun := fun m => tally.begun m + if m = n then 1 else 0 }
  | .numbered id =>
    { tally with numbered := fun other => tally.numbered other + if other = id then 1 else 0 }
  | .counted => { tally with counted := tally.counted + 1 }
  | .dropped request =>
    { tally with held := fun other => tally.held other + if request = other then 1 else 0 }
  | .event ticket =>
    { tally with event := fun other => tally.event other + if other = ticket then 1 else 0 }
  | .pump _ => { tally with pump := tally.pump + 1 }
  | .delivering request =>
    { tally with
      held := fun other => tally.held other + if request = other then 1 else 0
      pump := tally.pump + 1 }

@[simp] theorem tally_cons (token : Token) : tally (token ::ₘ share) = (tally share).add token := by
  simp only [tally, Multiset.count_cons, Multiset.countP_cons]
  cases token <;> simp [Token.holds, Token.isPump]

def eventTokens (events : List CompletionEvent) : Multiset Token :=
  (events.map fun event => Token.event event.ticket : List Token)

def droppedTokens (requests : List Request) : Multiset Token :=
  (requests.flatMap fun request => [.counted, .dropped request] : List Token)

@[simp] theorem eventTokens_nil : eventTokens [] = 0 := rfl

@[simp] theorem eventTokens_cons (event : CompletionEvent) (events : List CompletionEvent) :
    eventTokens (event :: events) = .event event.ticket ::ₘ eventTokens events := rfl

@[simp] theorem droppedTokens_nil : droppedTokens [] = 0 := rfl

@[simp] theorem droppedTokens_cons (request : Request) (requests : List Request) :
    droppedTokens (request :: requests) =
      .counted ::ₘ .dropped request ::ₘ droppedTokens requests := rfl

theorem tally_events (events : List CompletionEvent) : tally (eventTokens events + share) =
    { tally share with
      event := fun ticket =>
        (tally share).event ticket + events.countP fun event => event.ticket = ticket } := by
  induction events with
  | nil => simp
  | cons event rest ih =>
    simp only [eventTokens_cons, Multiset.cons_add, tally_cons, Tally.add, ih, countP_cons,
      decide_eq_true_eq, eq_comm (a := event.ticket), add_assoc]

theorem tally_droppeds (requests : List Request) : tally (droppedTokens requests + share) =
    { tally share with
      held := fun request => (tally share).held request + requests.count request
      counted := (tally share).counted + requests.length } := by
  induction requests with
  | nil => simp
  | cons request rest ih =>
    simp only [droppedTokens_cons, Multiset.cons_add, tally_cons, Tally.add, ih,
      count_cons, length_cons, beq_iff_eq, add_assoc]

end Tally

structure Accounts (runtime : Runtime) (tally : Tally) : Prop where
  begun : ∀ n, runtime.begun n =
    tally.begun n + runtime.accepted.countP fun request => request.node = n
  pending : ∀ n, (runtime.nodes n).asyncPending +
    (runtime.retired.countP fun request => request.node = n) = runtime.begun n
  numbered : ∀ id, tally.numbered id +
    (runtime.accepted.countP fun request => request.id = id) ≤ 1
  unused : ∀ id, runtime.nextRequest ≤ id → tally.numbered id +
    (runtime.accepted.countP fun request => request.id = id) = 0
  accepted : ∀ request, runtime.accepted.count request =
    runtime.requests.count request + tally.held request + runtime.retired.count request
  counted : runtime.inFlightCount = runtime.requests.length + tally.counted
  tickets : ∀ ticket, (runtime.queue.countP fun event => event.ticket = ticket) +
    tally.event ticket + (runtime.answers.countP fun answer => answer.1.ticket = ticket) +
    (runtime.orphans.countP fun event => event.ticket = ticket) ≤ 1
  unissued : ∀ ticket, runtime.tickets ≤ ticket →
    (runtime.queue.countP fun event => event.ticket = ticket) + tally.event ticket +
      (runtime.answers.countP fun answer => answer.1.ticket = ticket) +
      (runtime.orphans.countP fun event => event.ticket = ticket) = 0
  locked : tally.pump = if runtime.pumpLocked then 1 else 0

variable {event : CompletionEvent}

namespace Accounts

variable {runtime : Runtime} {tally : Tally} {request : Request} (accounts : Accounts runtime tally)
include accounts

theorem ids_nodup : (runtime.accepted.map Request.id).Nodup := by
  rw [nodup_iff_count_le_one]
  intro id
  have numbered := accounts.numbered id
  have same : (runtime.accepted.map Request.id).count id =
      runtime.accepted.countP fun request => request.id = id := by
    simp [count, Function.comp_def, beq_eq_decide]
  omega

theorem accepted_eq {left right : Request} (first : left ∈ runtime.accepted)
    (second : right ∈ runtime.accepted) (same : left.id = right.id) : left = right :=
  inj_on_of_nodup_map accounts.ids_nodup first second same

theorem places (request : Request) :
    runtime.requests.count request + tally.held request + runtime.retired.count request ≤ 1 := by
  rw [← accounts.accepted request]
  exact nodup_iff_count_le_one.mp accounts.ids_nodup.of_map request

theorem accepted_of_place (placed : 0 < runtime.requests.count request + tally.held request) :
    request ∈ runtime.accepted ∧ request ∉ runtime.retired := by
  have places := accounts.places request
  have accepted := accounts.accepted request
  refine ⟨count_pos_iff.mp (by omega), fun retired => ?_⟩
  have := count_pos_iff.mpr retired
  omega

theorem accepted_of_flight (inside : request ∈ runtime.requests) :
    request ∈ runtime.accepted ∧ request ∉ runtime.retired :=
  accounts.accepted_of_place (Nat.add_pos_left (count_pos_iff.mpr inside) _)

theorem accepted_of_held (held : 0 < tally.held request) :
    request ∈ runtime.accepted ∧ request ∉ runtime.retired :=
  accounts.accepted_of_place (Nat.add_pos_right _ held)

theorem flight_eq {left right : Entry} (first : left ∈ runtime.inFlight)
    (second : right ∈ runtime.inFlight) (same : left.id = right.id) :
    left.toRequest = right.toRequest :=
  accounts.accepted_eq (accounts.accepted_of_flight (Runtime.mem_requests first)).1
    (accounts.accepted_of_flight (Runtime.mem_requests second)).1 same

theorem count_flight (inside : entry ∈ runtime.inFlight) (request : Request) :
    runtime.requests.count request =
      (if request.id = entry.id then 0 else runtime.requests.count request) +
        if entry.toRequest = request then 1 else 0 := by
  have places := accounts.places request
  by_cases hit : entry.toRequest = request
  · subst hit
    have positive := count_pos_iff.mpr (Runtime.mem_requests inside)
    simp only [↓reduceIte]
    omega
  · by_cases same : request.id = entry.id
    · have absent : request ∉ runtime.requests := fun found =>
        hit (accounts.accepted_eq (accounts.accepted_of_flight (Runtime.mem_requests inside)).1
          (accounts.accepted_of_flight found).1 same.symm)
      simp [hit, count_eq_zero.mpr absent]
    · simp [hit, same]

theorem nodup_of_count {part : List Request}
    (fewer : ∀ request, part.count request ≤ runtime.accepted.count request) :
    (part.map Request.id).Nodup := by
  obtain ⟨same, perm, sublist⟩ := subperm_ext_iff.mpr fun request _ => fewer request
  exact (perm.map Request.id).nodup_iff.mp (accounts.ids_nodup.sublist (sublist.map Request.id))

theorem requests_nodup : (runtime.requests.map Request.id).Nodup := by
  refine accounts.nodup_of_count fun request => ?_
  have := accounts.accepted request
  omega

theorem length_take (key : ReorderKey) (inside : entry ∈ runtime.inFlight) :
    runtime.requests.length = (runtime.take key entry).requests.length + 1 := by
  have once : runtime.requests.countP (fun request => request.id = entry.id) = 1 := by
    have counted := count_eq_one_of_mem accounts.requests_nodup
      (mem_map_of_mem (Runtime.mem_requests inside))
    simpa [count, Function.comp_def, beq_eq_decide] using counted
  rw [Runtime.requests_take, ← countP_eq_length_filter,
    length_eq_countP_add_countP fun request : Request => request.id = entry.id, once, add_comm]
  simp

theorem beginAsync (n : NodeRef) :
    Accounts { runtime.modifyNode n fun node =>
        { node with asyncPending := node.asyncPending + 1 } with
          begun := Function.update runtime.begun n (runtime.begun n + 1) }
      { tally with begun := fun m => tally.begun m + if m = n then 1 else 0 } :=
  { accounts with
    begun := fun m => by
      have begun := accounts.begun m
      rcases eq_or_ne m n with rfl | other
      · simp [Runtime.modifyNode]
        omega
      · simpa [Runtime.modifyNode, other]
    pending := fun m => by
      have pending := accounts.pending m
      rcases eq_or_ne m n with rfl | other
      · simp [Runtime.modifyNode]
        omega
      · simpa [Runtime.modifyNode, other] }

omit accounts

theorem endAsync (accounts : Accounts runtime
      { tally with held := fun other => tally.held other + if request = other then 1 else 0 }) :
    Accounts { runtime.modifyNode request.node fun node =>
      { node with asyncPending := node.asyncPending - 1 } with
        retired := runtime.retired ++ [request] } tally :=
  { accounts with
    pending := fun m => by
      have pending := accounts.pending m
      rcases eq_or_ne m request.node with rfl | other
      · simp [Runtime.modifyNode]
        omega
      · simpa [Runtime.modifyNode, other, other.symm]
    accepted := fun other => by
      have accepted := accounts.accepted other
      simp only [count_append, count_singleton, beq_iff_eq] at accepted ⊢
      simp only [Runtime.requests, Runtime.modifyNode] at accepted ⊢
      omega }

theorem nextRequest (accounts : Accounts runtime tally) :
    Accounts { runtime with nextRequest := runtime.nextRequest + 1 }
      { tally with numbered := fun id =>
          tally.numbered id + if id = runtime.nextRequest then 1 else 0 } :=
  { accounts with
    numbered := fun id => by
      have numbered := accounts.numbered id
      have unused := accounts.unused id
      simp only
      split_ifs with same
      · have := unused same.ge
        omega
      · exact numbered
    unused := fun id above => by
      have above : runtime.nextRequest + 1 ≤ id := above
      simp only [show id ≠ runtime.nextRequest by omega, ↓reduceIte, add_zero]
      exact accounts.unused id (by omega) }

theorem accept (accounts : Accounts runtime
      { tally with
        begun := fun n => tally.begun n + if n = request.node then 1 else 0
        numbered := fun id => tally.numbered id + if id = request.id then 1 else 0 }) :
    Accounts (runtime.accept request) tally :=
  { accounts with
    begun := fun n => by
      have begun := accounts.begun n
      simp only [Runtime.accept, countP_append, countP_singleton, decide_eq_true_eq,
        eq_comm (a := request.node)] at begun ⊢
      omega
    numbered := fun id => by
      have numbered := accounts.numbered id
      simp only [Runtime.accept, countP_append, countP_singleton, decide_eq_true_eq,
        eq_comm (a := request.id)] at numbered ⊢
      omega
    unused := fun id above => by
      have unused := accounts.unused id above
      simp only [Runtime.accept, countP_append, countP_singleton, decide_eq_true_eq,
        eq_comm (a := request.id)] at unused ⊢
      omega
    accepted := fun other => by
      have accepted := accounts.accepted other
      rw [(runtime.requests_accept request).count_eq]
      simp only [Runtime.accept, count_append, count_cons, count_nil] at accepted ⊢
      omega
    counted := by
      have counted := accounts.counted
      rw [(runtime.requests_accept request).length_eq]
      simp only [Runtime.accept, length_cons] at counted ⊢
      omega }

theorem enqueue (accounts : Accounts runtime tally) (event : CompletionEvent) :
    Accounts (runtime.enqueue event) tally :=
  { accounts with
    tickets := fun ticket => by
      have tickets := accounts.tickets ticket
      have unissued := accounts.unissued ticket
      simp only [Runtime.enqueue, countP_append, countP_singleton, decide_eq_true_eq]
      split_ifs with same
      · have := unissued same.le
        omega
      · exact tickets
    unissued := fun ticket above => by
      have above : runtime.tickets + 1 ≤ ticket := above
      have unissued := accounts.unissued ticket (by omega)
      simp only [Runtime.enqueue, countP_append, countP_singleton, decide_eq_true_eq,
        show runtime.tickets ≠ ticket by omega, ↓reduceIte, add_zero]
      exact unissued }

theorem orphan (accounts : Accounts runtime
      { tally with
        event := fun ticket => tally.event ticket + if ticket = event.ticket then 1 else 0 }) :
    Accounts (runtime.orphan event) tally :=
  { accounts with
    tickets := fun ticket => by
      have tickets := accounts.tickets ticket
      simp only [Runtime.orphan, countP_append, countP_singleton, decide_eq_true_eq,
        eq_comm (a := event.ticket)] at tickets ⊢
      omega
    unissued := fun ticket above => by
      have unissued := accounts.unissued ticket above
      simp only [Runtime.orphan, countP_append, countP_singleton, decide_eq_true_eq,
        eq_comm (a := event.ticket)] at unissued ⊢
      omega }

theorem answer (accounts : Accounts runtime
      { tally with
        event := fun ticket => tally.event ticket + if ticket = event.ticket then 1 else 0 }) :
    Accounts (runtime.answer event entry) tally :=
  { accounts with
    accepted := fun other => by
      rw [Runtime.requests_answer]
      exact accounts.accepted other
    counted := by
      rw [Runtime.requests_answer]
      exact accounts.counted
    tickets := fun ticket => by
      have tickets := accounts.tickets ticket
      simp only [Runtime.answer, Runtime.modifyEntry, countP_append, countP_singleton,
        decide_eq_true_eq, eq_comm (a := event.ticket)] at tickets ⊢
      omega
    unissued := fun ticket above => by
      have unissued := accounts.unissued ticket above
      simp only [Runtime.answer, Runtime.modifyEntry, countP_append, countP_singleton,
        decide_eq_true_eq, eq_comm (a := event.ticket)] at unissued ⊢
      omega }

variable (accounts : Accounts runtime tally)
include accounts

theorem take (key : ReorderKey) (inside : entry ∈ runtime.inFlight) :
    Accounts (runtime.take key entry)
      { tally with
        held := fun other => tally.held other + if entry.toRequest = other then 1 else 0
        counted := tally.counted + 1 } :=
  { accounts with
    accepted := fun other => by
      have accepted := accounts.accepted other
      rw [accounts.count_flight inside other] at accepted
      rw [Runtime.count_requests_take]
      simp only [Runtime.take]
      omega
    counted := by
      have counted := accounts.counted
      have shorter := accounts.length_take key inside
      simp only [Runtime.take] at shorter ⊢
      omega }

theorem drainAll : Accounts { runtime with queue := [] }
      { tally with event := fun ticket =>
          tally.event ticket + runtime.queue.countP fun event => event.ticket = ticket } :=
  { accounts with
    tickets := fun ticket => by
      have tickets := accounts.tickets ticket
      simp only [countP_nil]
      omega
    unissued := fun ticket above => by
      have unissued := accounts.unissued ticket above
      simp only [countP_nil]
      omega }

theorem detach (session : Nat) :
    Accounts (runtime.detach session).1
      { tally with
        held := fun request => tally.held request +
          ((runtime.detach session).2.map Entry.toRequest).count request
        counted := tally.counted + ((runtime.detach session).2.map Entry.toRequest).length } := by
  have parts := runtime.requests_detach session
  unfold Runtime.detach at parts ⊢
  split
  · simpa using accounts
  rename_i attached found
  simp only [found] at parts
  refine { accounts with accepted := fun request => ?_, counted := ?_ }
  · have accepted := accounts.accepted request
    have split := parts.count_eq request
    rw [count_append] at split
    simp only at accepted split ⊢
    omega
  · have counted := accounts.counted
    have split := parts.length_eq
    rw [length_append] at split
    simp only at counted split ⊢
    omega

theorem lockPump (free : runtime.pumpLocked = false) :
    Accounts { runtime with pumpLocked := true } { tally with pump := tally.pump + 1 } := by
  refine { accounts with locked := ?_ }
  have locked := accounts.locked
  rw [free] at locked
  simpa using locked

omit accounts

theorem unlockPump (accounts : Accounts runtime { tally with pump := tally.pump + 1 }) :
    Accounts { runtime with pumpLocked := false } tally := by
  refine { accounts with locked := ?_ }
  have locked : tally.pump + 1 = if runtime.pumpLocked then 1 else 0 := accounts.locked
  split at locked
  · simpa using locked
  · omega

theorem countDown (accounts : Accounts runtime { tally with counted := tally.counted + 1 }) :
    Accounts { runtime with inFlightCount := runtime.inFlightCount - 1 } tally := by
  refine { accounts with counted := ?_ }
  have counted := accounts.counted
  simp only [Runtime.requests] at counted ⊢
  omega

def records (runtime : Runtime) : (NodeRef → Nat) × List Request × List Request × Nat × Int ×
    List CompletionEvent × Nat × List (CompletionEvent × Entry) × List CompletionEvent × Bool :=
  (runtime.begun, runtime.accepted, runtime.retired, runtime.nextRequest, runtime.inFlightCount,
    runtime.queue, runtime.tickets, runtime.answers, runtime.orphans, runtime.pumpLocked)

theorem congr {after : Runtime} (accounts : Accounts runtime tally)
    (requests : after.requests = runtime.requests)
    (pending : ∀ n, (after.nodes n).asyncPending = (runtime.nodes n).asyncPending)
    (same : records after = records runtime) : Accounts after tally := by
  simp only [records, Prod.mk.injEq] at same
  obtain ⟨begun, accepted, retired, next, count, queue, tickets, answers, orphans, pump⟩ := same
  constructor
  · rw [begun, accepted]
    exact accounts.begun
  · intro n
    rw [pending, retired, begun]
    exact accounts.pending n
  · rw [accepted]
    exact accounts.numbered
  · rw [accepted, next]
    exact accounts.unused
  · rw [accepted, requests, retired]
    exact accounts.accepted
  · rw [count, requests]
    exact accounts.counted
  · rw [queue, answers, orphans]
    exact accounts.tickets
  · rw [queue, answers, orphans, tickets]
    exact accounts.unissued
  · rw [pump]
    exact accounts.locked

end Accounts

end GraphEngine.AsyncBooks
