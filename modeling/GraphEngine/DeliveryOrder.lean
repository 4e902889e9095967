import GraphEngine.AsyncProvenance

/-!
The order in which the outputs of an asynchronous node reach its edges. While all open
requests of a node are of one topology version, its reorder queue lines them up, and the
request whose outputs are pushed or wait for room is the last one that left the queue.
-/

namespace GraphEngine.DeliveryOrder

open NodeRuntimes AsyncRuntimes AsyncBooks AsyncProvenance List Function Runtime

def rank (accepted : List Request) (id : Nat) : Nat := (accepted.map Request.id).idxOf id

/-- No open request and no waiting output of the node is of another version. -/
def oneVersion (runtime : Runtime) (args : SubmitArgs) : Bool :=
  (runtime.accepted.all fun request => request.node ≠ args.node || request ∈ runtime.retired ||
    request.topology = args.topology) &&
  runtime.blocked.all fun slot => slot.1.1 ≠ args.node || slot.1.2 = args.topology

def pinned : Token → List (NodeRef × Nat)
  | .pump pins => pins
  | .delivering request => [(request.node, request.id)]
  | .begun _ | .numbered _ | .counted | .dropped _ | .event _ => []

/-- The later tokens that are new name no outputs. -/
def Bare (later share : Multiset Token) : Prop := ∀ token ∈ later, token ∈ share ∨ pinned token = []

theorem Bare.of_subset {later share : Multiset Token} (kept : later ⊆ share) : Bare later share :=
  fun _ inside => .inl (kept inside)

theorem Bare.refl {share : Multiset Token} : Bare share share := of_subset fun _ inside => inside

theorem Bare.tail {share : Multiset Token} {token : Token} : Bare share (token ::ₘ share) :=
  of_subset (Multiset.subset_cons share token)

theorem Bare.cons {later share : Multiset Token} {token : Token} (bare : Bare later share)
    (names : pinned token = []) : Bare (token ::ₘ later) share := by
  intro other inside
  rcases Multiset.mem_cons.mp inside with rfl | kept
  · exact .inr names
  · exact bare other kept

structure Ordered (runtime : Runtime) (share : Multiset Token) : Prop where
  agree : ∀ left ∈ runtime.accepted, left ∉ runtime.retired → ∀ right ∈ runtime.accepted,
    right ∉ runtime.retired → left.node = right.node → left.topology = right.topology
  slots : ∀ slot ∈ runtime.blocked, ∀ request ∈ runtime.accepted, request ∉ runtime.retired →
    request.node = slot.1.1 → request.topology = slot.1.2
  parked : ∀ slot ∈ runtime.blocked, ∀ parcel ∈ slot.2.pushes,
    runtime.last parcel.tag.node = some parcel.tag.request
  pins : ∀ token ∈ share, ∀ pin ∈ pinned token, runtime.last pin.1 = some pin.2
  lasts : ∀ n id, runtime.last n = some id → ∃ request ∈ runtime.accepted, request.id = id
  behind : ∀ request ∈ runtime.requests, ∀ id, runtime.last request.node = some id →
    rank runtime.accepted id < rank runtime.accepted request.id
  queues : ∀ key, ∀ id ∈ runtime.reorder key, ∃ request ∈ runtime.accepted,
    request.id = id ∧ request.key = key
  sorted : ∀ key, (runtime.reorder key).Pairwise fun left right =>
    rank runtime.accepted left < rank runtime.accepted right
  pushed : ∀ push ∈ runtime.pushed, ∃ id, runtime.last push.2.node = some id ∧
    rank runtime.accepted push.2.request ≤ rank runtime.accepted id
  order : runtime.pushed.Pairwise fun earlier later => earlier.2.node = later.2.node →
    rank runtime.accepted earlier.2.request ≤ rank runtime.accepted later.2.request

section Rank

variable {accepted : List Request}

theorem rank_append (more : List Request) {id : Nat}
    (listed : ∃ request ∈ accepted, request.id = id) :
    rank (accepted ++ more) id = rank accepted id := by
  rw [rank, map_append]
  exact idxOf_append_of_mem (mem_map.mpr listed)

theorem rank_lt_length {id : Nat} (listed : ∃ request ∈ accepted, request.id = id) :
    rank accepted id < accepted.length := by
  have inside := idxOf_lt_length_iff.mpr (mem_map.mpr listed)
  rwa [length_map] at inside

theorem rank_new {request : Request} (fresh : ∀ other ∈ accepted, other.id ≠ request.id) :
    rank (accepted ++ [request]) request.id = accepted.length := by
  have absent : request.id ∉ accepted.map Request.id := by
    rintro listed
    obtain ⟨other, inside, same⟩ := mem_map.mp listed
    exact fresh other inside same
  rw [rank, map_append, idxOf_append_of_notMem absent]
  simp

end Rank

namespace Ordered

variable {runtime : Runtime} {tally : Tally} {share later : Multiset Token}

theorem shrink {after : Runtime} (ordered : Ordered runtime share) (bare : Bare later share)
    (requests : ∀ request ∈ after.requests, request ∈ runtime.requests)
    (slots : ∀ slot ∈ after.blocked, slot ∈ runtime.blocked)
    (queues : ∀ key, (after.reorder key).Sublist (runtime.reorder key))
    (retired : ∀ request ∈ runtime.retired, request ∈ after.retired)
    (same : (after.accepted, after.last, after.pushed) =
      (runtime.accepted, runtime.last, runtime.pushed)) : Ordered after later := by
  simp only [Prod.mk.injEq] at same
  obtain ⟨accepted, last, pushed⟩ := same
  constructor
  · rw [accepted]
    exact fun left first open_ right second also =>
      ordered.agree left first (open_ ∘ retired left) right second (also ∘ retired right)
  · rw [accepted]
    exact fun slot inside request known open_ =>
      ordered.slots slot (slots slot inside) request known (open_ ∘ retired request)
  · rw [last]
    exact fun slot inside => ordered.parked slot (slots slot inside)
  · rw [last]
    intro token inside pin named
    rcases bare token inside with kept | names
    · exact ordered.pins token kept pin named
    · rw [names] at named
      cases named
  · rw [last, accepted]
    exact ordered.lasts
  · rw [last, accepted]
    exact fun request inside => ordered.behind request (requests request inside)
  · rw [accepted]
    exact fun key id inside => ordered.queues key id ((queues key).subset inside)
  · rw [accepted]
    exact fun key => (ordered.sorted key).sublist (queues key)
  · rw [pushed, last, accepted]
    exact ordered.pushed
  · rw [pushed, accepted]
    exact ordered.order

def records (runtime : Runtime) : List Request × List Request × (NodeRef → Option Nat) ×
    List (ReorderKey × BlockedOutput) × (ReorderKey → List Nat) × List (ChannelRef × Tag) :=
  (runtime.accepted, runtime.retired, runtime.last, runtime.blocked, runtime.reorder,
    runtime.pushed)

variable (ordered : Ordered runtime share)
include ordered

theorem congr {after : Runtime} (bare : Bare later share)
    (requests : after.requests = runtime.requests) (same : records after = records runtime) :
    Ordered after later := by
  simp only [records, Prod.mk.injEq] at same
  obtain ⟨accepted, retired, last, blocked, reorder, pushed⟩ := same
  refine ordered.shrink bare (fun _ inside => requests ▸ inside) (fun _ inside => blocked ▸ inside)
    (fun key => reorder ▸ List.Sublist.refl _) (fun _ inside => retired ▸ inside) ?_
  rw [accepted, last, pushed]

theorem mono (bare : Bare later share) : Ordered runtime later := ordered.congr bare rfl rfl

theorem skipDropped : Ordered runtime.skipDropped share :=
  ordered.shrink .refl (fun _ inside => inside) (fun _ inside => inside)
    (fun _ => dropWhile_sublist _) (fun _ inside => inside) rfl

theorem detach (session : Nat) (bare : Bare later share) :
    Ordered (runtime.detach session).1 later := by
  unfold Runtime.detach
  split
  · exact ordered.mono bare
  refine ordered.shrink bare ?_ (fun _ inside => (mem_filter.mp inside).1) ?_
    (fun _ inside => inside) rfl
  · intro request inside
    obtain ⟨entry, listed, rfl⟩ := mem_map.mp inside
    exact mem_requests (mem_filter.mp listed).1
  · intro key
    simp only
    split
    · exact List.Sublist.refl _
    · exact nil_sublist _

theorem accept {request : Request} (accounts : Accounts runtime tally)
    (provenance : Provenance runtime) (fresh : ∀ other ∈ runtime.accepted, other.id ≠ request.id)
    (versions : ∀ other ∈ runtime.accepted, other ∉ runtime.retired → other.node = request.node →
      other.topology = request.topology)
    (waiting : ∀ slot ∈ runtime.blocked, slot.1.1 = request.node → slot.1.2 = request.topology)
    (bare : Bare later share) : Ordered (runtime.accept request) later := by
  have split {other : Request} (inside : other ∈ runtime.accepted ++ [request]) :
      other ∈ runtime.accepted ∨ other = request := by
    simpa using inside
  have old {id : Nat} (listed : ∃ other ∈ runtime.accepted, other.id = id) :
      rank (runtime.accepted ++ [request]) id = rank runtime.accepted id :=
    rank_append [request] listed
  have sent {push : ChannelRef × Tag} (inside : push ∈ runtime.pushed) :
      ∃ other ∈ runtime.accepted, other.id = push.2.request :=
    (provenance.pushed push inside).request.imp fun _ both => ⟨both.1, both.2.1⟩
  have queued {key : ReorderKey} {id : Nat} (inside : id ∈ runtime.reorder key) :
      ∃ other ∈ runtime.accepted ++ [request], other.id = id ∧ other.key = key :=
    (ordered.queues key id inside).imp fun _ => And.imp_left (mem_append_left _)
  constructor
  · intro left first open_ right second also same
    rcases split first with before | rfl <;> rcases split second with known | rfl
    · exact ordered.agree left before open_ right known also same
    · exact versions left before open_ same
    · exact (versions right known also same.symm).symm
    · rfl
  · intro slot inside other listed open_ same
    rcases split listed with before | rfl
    · exact ordered.slots slot inside other before open_ same
    · exact (waiting slot inside same.symm).symm
  · exact ordered.parked
  · exact (ordered.mono bare).pins
  · intro n id told
    obtain ⟨other, inside, same⟩ := ordered.lasts n id told
    exact ⟨other, mem_append_left _ inside, same⟩
  · intro other inside id told
    simp only [Runtime.accept]
    rw [old (ordered.lasts _ id told)]
    rcases mem_cons.mp ((runtime.requests_accept request).subset inside) with rfl | before
    · rw [rank_new fresh]
      exact rank_lt_length (ordered.lasts _ id told)
    · rw [old ⟨other, (accounts.accepted_of_flight before).1, rfl⟩]
      exact ordered.behind other before id told
  · intro key id inside
    simp only [Runtime.accept] at inside ⊢
    rcases eq_or_ne key request.key with rfl | elsewhere
    · rw [update_self] at inside
      rcases mem_append.mp inside with before | now
      · exact queued before
      · exact ⟨request, by simp, (mem_singleton.mp now).symm, rfl⟩
    · rw [update_of_ne elsewhere] at inside
      exact queued inside
  · intro key
    have known {id : Nat} (inside : id ∈ runtime.reorder key) :
        ∃ other ∈ runtime.accepted, other.id = id :=
      (ordered.queues key id inside).imp fun _ both => ⟨both.1, both.2.1⟩
    have kept : (runtime.reorder key).Pairwise fun left right =>
        rank (runtime.accepted ++ [request]) left < rank (runtime.accepted ++ [request]) right := by
      refine (ordered.sorted key).imp_of_mem ?_
      intro left right first second before
      rwa [old (known first), old (known second)]
    simp only [Runtime.accept]
    rcases eq_or_ne key request.key with rfl | elsewhere
    · rw [update_self, pairwise_append]
      refine ⟨kept, pairwise_singleton _ _, ?_⟩
      intro left first right second
      rw [mem_singleton.mp second, old (known first), rank_new fresh]
      exact rank_lt_length (known first)
    · rw [update_of_ne elsewhere]
      exact kept
  · intro push inside
    obtain ⟨id, told, ordered_⟩ := ordered.pushed push inside
    refine ⟨id, told, ?_⟩
    simp only [Runtime.accept]
    rwa [old (sent inside), old (ordered.lasts _ id told)]
  · refine ordered.order.imp_of_mem ?_
    intro earlier later first second before same
    simp only [Runtime.accept]
    rw [old (sent first), old (sent second)]
    exact before same

omit ordered

theorem take {key : ReorderKey} {entry : Entry} {others : Multiset Token}
    (ordered : Ordered runtime others) (accounts : Accounts runtime tally)
    (provenance : Provenance runtime) (ready : Runtime.Ready runtime key entry)
    (tokens : ∀ token ∈ later, pinned token = [(entry.node, entry.id)] ∨ pinned token = []) :
    Ordered (runtime.take key entry) later := by
  obtain ⟨accepted, unretired⟩ := accounts.accepted_of_flight (mem_requests ready.inside)
  have home : entry.key = key := by
    obtain ⟨request, listed, same, placed⟩ :=
      ordered.queues key entry.id (mem_of_mem_head? ready.head)
    rw [← placed, accounts.accepted_eq listed accepted same]
  constructor
  · exact ordered.agree
  · exact ordered.slots
  · intro slot inside parcel sent
    have node := (provenance.blocked slot inside parcel sent).2
    simp only [Runtime.take]
    rw [update_of_ne]
    · exact ordered.parked slot inside parcel sent
    · -- A waiting output of the node would be in the way.
      intro same
      have version := ordered.slots slot inside entry.toRequest accepted unretired
        (same.symm.trans node)
      have blocked : runtime.isBlocked key = true := by
        refine any_eq_true.mpr ⟨slot, inside, ?_⟩
        rw [← home, decide_eq_true_eq]
        exact Prod.ext (node.symm.trans same) version.symm
      rw [ready.free] at blocked
      cases blocked
  · intro token inside pin named
    rcases tokens token inside with own | none_
    · rw [own] at named
      rw [mem_singleton.mp named]
      exact update_self ..
    · rw [none_] at named
      cases named
  · intro n id told
    simp only [Runtime.take] at told
    rcases eq_or_ne n entry.node with rfl | other
    · rw [update_self] at told
      cases told
      exact ⟨_, accepted, rfl⟩
    · rw [update_of_ne other] at told
      exact ordered.lasts n id told
  · intro request inside id told
    rw [requests_take] at inside
    obtain ⟨flying, differs⟩ := mem_filter.mp inside
    simp only [Runtime.take] at told ⊢
    rcases eq_or_ne request.node entry.node with same | other
    · rw [same, update_self] at told
      cases told
      obtain ⟨waiting, listed, rfl⟩ := mem_map.mp flying
      obtain ⟨known, open_⟩ := accounts.accepted_of_flight flying
      -- Of one version, the two stand in the same queue.
      have together : waiting.key = key := by
        rw [← home]
        exact Prod.ext same (ordered.agree _ known open_ _ accepted unretired same)
      have queued := provenance.queued waiting listed
      obtain ⟨rest, queue⟩ := head?_eq_some_iff.mp ready.head
      have sorted := ordered.sorted key
      rw [together, queue] at queued
      rw [queue, pairwise_cons] at sorted
      have later := (mem_cons.mp queued).resolve_left (by simpa using differs)
      exact sorted.1 _ later
    · rw [update_of_ne other] at told
      exact ordered.behind request flying id told
  · intro other id inside
    simp only [Runtime.take] at inside
    rcases eq_or_ne other key with rfl | elsewhere
    · rw [update_self] at inside
      exact ordered.queues _ id (mem_of_mem_tail inside)
    · rw [update_of_ne elsewhere] at inside
      exact ordered.queues _ id inside
  · intro other
    simp only [Runtime.take]
    rcases eq_or_ne other key with rfl | elsewhere
    · rw [update_self]
      exact (ordered.sorted _).sublist (tail_sublist _)
    · rw [update_of_ne elsewhere]
      exact ordered.sorted other
  · intro push inside
    obtain ⟨id, told, before⟩ := ordered.pushed push inside
    simp only [Runtime.take]
    rcases eq_or_ne push.2.node entry.node with same | other
    · rw [same, update_self]
      rw [same] at told
      have next := ordered.behind _ (mem_requests ready.inside) id told
      exact ⟨_, rfl, before.trans next.le⟩
    · rw [update_of_ne other]
      exact ⟨id, told, before⟩
  · exact ordered.order

theorem pushEdge {parcel : Parcel} (ordered : Ordered runtime share)
    (last : runtime.last parcel.tag.node = some parcel.tag.request) :
    Ordered (runtime.pushEdge parcel).1 share := by
  have kept : ∀ push ∈ runtime.pushed ++ [(parcel.edge, parcel.tag)], ∃ id,
      runtime.last push.2.node = some id ∧
        rank runtime.accepted push.2.request ≤ rank runtime.accepted id := by
    refine forall_mem_append.mpr ⟨ordered.pushed, forall_mem_singleton.mpr ?_⟩
    exact ⟨_, last, le_rfl⟩
  have sorted : (runtime.pushed ++ [(parcel.edge, parcel.tag)]).Pairwise fun earlier later =>
      earlier.2.node = later.2.node →
        rank runtime.accepted earlier.2.request ≤ rank runtime.accepted later.2.request := by
    rw [pairwise_append]
    refine ⟨ordered.order, pairwise_singleton _ _, ?_⟩
    intro earlier inside now named same
    rw [mem_singleton.mp named] at same ⊢
    obtain ⟨id, told, before⟩ := ordered.pushed earlier inside
    rw [same, last] at told
    cases told
    exact before
  by_cases entered : ((runtime.edges parcel.edge).push parcel.packet).1 = .accepted ∨
      ((runtime.edges parcel.edge).push parcel.packet).1 = .acceptedDroppedOldest
  · refine { ordered with pushed := ?_, order := ?_ }
    · simpa [Runtime.pushEdge, entered] using kept
    · simpa [Runtime.pushEdge, entered] using sorted
  · refine { ordered with pushed := ?_, order := ?_ }
    · simpa [Runtime.pushEdge, entered] using ordered.pushed
    · simpa [Runtime.pushEdge, entered] using ordered.order

theorem park {request : Request} {pushes : List Parcel} (ordered : Ordered runtime share)
    (session : Nat) (accepted : request ∈ runtime.accepted) (unretired : request ∉ runtime.retired)
    (last : ∀ parcel ∈ pushes, runtime.last parcel.tag.node = some parcel.tag.request) :
    Ordered (runtime.park request.key session pushes) share := by
  have versions : ∀ other ∈ runtime.accepted, other ∉ runtime.retired →
      other.node = request.key.1 → other.topology = request.key.2 :=
    fun other known open_ same => ordered.agree other known open_ request accepted unretired same
  unfold Runtime.park
  split
  · refine { ordered with slots := ?_, parked := ?_ }
    · intro slot inside
      obtain ⟨old, listed, rfl⟩ := mem_map.mp inside
      split
      · exact versions
      · exact ordered.slots old listed
    · intro slot inside parcel sent
      obtain ⟨old, listed, rfl⟩ := mem_map.mp inside
      split at sent
      · rcases mem_append.mp sent with earlier | now
        · exact ordered.parked old listed parcel earlier
        · exact last parcel now
      · exact ordered.parked old listed parcel sent
  · have places {slot : ReorderKey × BlockedOutput}
        (inside : slot ∈ runtime.blocked.takeWhile (fun slot => keyBefore slot.1 request.key) ++
          (request.key, { session, pushes }) ::
            runtime.blocked.dropWhile fun slot => keyBefore slot.1 request.key) :
        slot ∈ runtime.blocked ∨ slot = (request.key, { session, pushes }) := by
      rcases mem_append.mp inside with before | rest
      · exact .inl (takeWhile_subset _ before)
      · exact (mem_cons.mp rest).symm.imp_left fun after => dropWhile_subset _ after
    refine { ordered with slots := ?_, parked := ?_ }
    · intro slot inside
      rcases places inside with old | rfl
      · exact ordered.slots slot old
      · exact versions
    · intro slot inside
      rcases places inside with old | rfl
      · exact ordered.parked slot old
      · exact last

theorem storeBlocked {key : ReorderKey} {still : List Parcel} (ordered : Ordered runtime share)
    (last : ∀ parcel ∈ still, runtime.last parcel.tag.node = some parcel.tag.request) :
    Ordered (runtime.storeBlocked key still) share := by
  unfold Runtime.storeBlocked
  split
  · exact ordered.shrink .refl (fun _ inside => inside)
      (fun _ inside => (mem_filter.mp inside).1) (fun _ => List.Sublist.refl _)
      (fun _ inside => inside) rfl
  refine { ordered with slots := ?_, parked := ?_ }
  · intro slot inside
    obtain ⟨old, listed, rfl⟩ := mem_map.mp inside
    split
    · next same =>
        rw [← same]
        exact ordered.slots old listed
    · exact ordered.slots old listed
  · intro slot inside parcel sent
    obtain ⟨old, listed, rfl⟩ := mem_map.mp inside
    split at sent
    · exact last parcel sent
    · exact ordered.parked old listed parcel sent

end Ordered

end GraphEngine.DeliveryOrder
