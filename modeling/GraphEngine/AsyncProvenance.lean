import GraphEngine.AsyncBooks
import Mathlib.Data.List.TakeWhile

/-!
Where the outputs of an asynchronous node come from. Every packet that waits for room or
entered an edge is for an accepted request, and came with the event that was taken as the
answer to that request, or is its placeholder. A request has one answer at most.
-/

namespace GraphEngine.AsyncProvenance

open NodeRuntimes AsyncRuntimes AsyncBooks List

/-- A packet is for an accepted request, and for its answer if it came with an event. -/
structure Answered (accepted : List Request) (answers : List (CompletionEvent × Entry))
    (tag : Tag) : Prop where
  request : ∃ request ∈ accepted, request.id = tag.request ∧ request.node = tag.node
  event : ∀ ticket, tag.ticket = some ticket → ∃ answer ∈ answers,
    answer.1.ticket = ticket ∧ answer.2.id = tag.request ∧ answer.2.node = tag.node

def Known (runtime : Runtime) (tag : Tag) : Prop := Answered runtime.accepted runtime.answers tag

structure Provenance (runtime : Runtime) : Prop where
  /-- When it was taken, an answer agreed with a request without an answer. -/
  answers : ∀ answer ∈ runtime.answers, answer.2.toRequest ∈ runtime.accepted ∧
    answer.1.requestId = answer.2.id ∧ matchesRequest answer.1 answer.2.toRequest = true ∧
    answer.2.done = false
  once : (runtime.answers.map fun answer => answer.2.id).Nodup
  closed : ∀ answer ∈ runtime.answers, ∀ entry ∈ runtime.inFlight, entry.id = answer.2.id →
    entry.done = true
  results : ∀ entry ∈ runtime.inFlight, ∀ event, entry.result = some event →
    ∃ answer ∈ runtime.answers, answer.1 = event ∧ answer.2.toRequest = entry.toRequest
  blocked : ∀ slot ∈ runtime.blocked, ∀ parcel ∈ slot.2.pushes,
    Known runtime parcel.tag ∧ parcel.tag.node = slot.1.1
  pushed : ∀ push ∈ runtime.pushed, Known runtime push.2
  queued : ∀ entry ∈ runtime.inFlight, entry.id ∈ runtime.reorder entry.key

structure Grows (before after : Runtime) : Prop where
  accepted : before.accepted <+: after.accepted
  answers : before.answers <+: after.answers

theorem Grows.refl (runtime : Runtime) : Grows runtime runtime := ⟨prefix_refl _, prefix_refl _⟩

theorem Grows.trans {first second third : Runtime} (earlier : Grows first second)
    (later : Grows second third) : Grows first third :=
  ⟨earlier.accepted.trans later.accepted, earlier.answers.trans later.answers⟩

variable {after : Runtime}

theorem Known.later {before : Runtime} {tag : Tag} (known : Known before tag)
    (grows : Grows before after) : Known after tag where
  request := by
    obtain ⟨request, inside, same⟩ := known.request
    exact ⟨request, grows.accepted.subset inside, same⟩
  event ticket told := by
    obtain ⟨answer, inside, same⟩ := known.event ticket told
    exact ⟨answer, grows.answers.subset inside, same⟩

namespace Provenance

variable {runtime : Runtime} {tally : Tally}

def records (runtime : Runtime) : List Request × List (CompletionEvent × Entry) × List Entry ×
    List (ReorderKey × BlockedOutput) × List (ChannelRef × Tag) × (ReorderKey → List Nat) :=
  (runtime.accepted, runtime.answers, runtime.inFlight, runtime.blocked, runtime.pushed,
    runtime.reorder)

variable (provenance : Provenance runtime)
include provenance

theorem modifyEntry {id : Nat} {change : Entry → Entry}
    (same : ∀ entry, (change entry).toRequest = entry.toRequest)
    (done : ∀ entry, entry.done = true → (change entry).done = true)
    (result : ∀ entry event, (change entry).result = some event → entry.result = some event) :
    Provenance (runtime.modifyEntry id change) := by
  have origin {entry : Entry} (inside : entry ∈ (runtime.modifyEntry id change).inFlight) :
      ∃ old ∈ runtime.inFlight, entry.toRequest = old.toRequest ∧
        (old.done = true → entry.done = true) ∧
        ∀ event, entry.result = some event → old.result = some event := by
    obtain ⟨old, listed, rfl⟩ := mem_map.mp inside
    refine ⟨old, listed, ?_⟩
    split
    · exact ⟨same old, done old, result old⟩
    · exact ⟨rfl, fun kept => kept, fun _ told => told⟩
  refine { provenance with closed := ?_, results := ?_, queued := ?_ }
  · intro answer given entry inside named
    obtain ⟨old, listed, request, kept, _⟩ := origin inside
    exact kept (provenance.closed answer given old listed (by rw [← request]; exact named))
  · intro entry inside event told
    obtain ⟨old, listed, request, _, before⟩ := origin inside
    rw [request]
    exact provenance.results old listed event (before event told)
  · intro entry inside
    obtain ⟨old, listed, request, _⟩ := origin inside
    rw [request]
    exact provenance.queued old listed

theorem shrink (fewer : ∀ entry ∈ after.inFlight, entry ∈ runtime.inFlight)
    (slots : ∀ slot ∈ after.blocked, slot ∈ runtime.blocked)
    (queued : ∀ entry ∈ after.inFlight, entry.id ∈ runtime.reorder entry.key →
      entry.id ∈ after.reorder entry.key) (same : (after.accepted, after.answers, after.pushed) =
      (runtime.accepted, runtime.answers, runtime.pushed)) : Provenance after := by
  simp only [Prod.mk.injEq] at same
  obtain ⟨accepted, answers, pushed⟩ := same
  constructor
  · rw [answers, accepted]
    exact provenance.answers
  · rw [answers]
    exact provenance.once
  · rw [answers]
    exact fun answer given entry inside => provenance.closed answer given entry (fewer entry inside)
  · rw [answers]
    exact fun entry inside => provenance.results entry (fewer entry inside)
  · simp only [Known, accepted, answers]
    exact fun slot inside => provenance.blocked slot (slots slot inside)
  · simp only [pushed, Known, accepted, answers]
    exact provenance.pushed
  · exact fun entry inside => queued entry inside (provenance.queued entry (fewer entry inside))

theorem congr (same : records after = records runtime) : Provenance after := by
  simp only [records, Prod.mk.injEq] at same
  obtain ⟨accepted, answers, inFlight, blocked, pushed, reorder⟩ := same
  refine provenance.shrink (fun _ inside => inFlight ▸ inside) (fun _ inside => blocked ▸ inside)
    (fun _ _ listed => reorder ▸ listed) ?_
  rw [accepted, answers, pushed]

theorem skipDropped : Provenance runtime.skipDropped := by
  refine provenance.shrink (fun _ inside => inside) (fun _ inside => inside) ?_ rfl
  intro entry inside listed
  -- A request in flight stops the dropping.
  rw [← takeWhile_append_dropWhile
    (p := fun id => (runtime.find id).isNone) (l := runtime.reorder entry.key)] at listed
  rcases mem_append.mp listed with early | kept
  · have gone := mem_takeWhile_imp early
    have live : (runtime.find entry.id).isSome = true := Runtime.find_isSome inside
    simp only [Option.isNone_iff_eq_none] at gone
    rw [gone] at live
    cases live
  · exact kept

theorem take {entry : Entry} {key : ReorderKey}
    (head : (runtime.reorder key).head? = some entry.id) : Provenance (runtime.take key entry) := by
  refine provenance.shrink (fun _ inside => (mem_filter.mp inside).1)
    (fun _ inside => inside) ?_ rfl
  intro other inside listed
  have differs : other.id ≠ entry.id := by simpa using (mem_filter.mp inside).2
  simp only [Runtime.take]
  rcases eq_or_ne other.key key with rfl | elsewhere
  · rw [Function.update_self]
    obtain ⟨rest, queue⟩ := head?_eq_some_iff.mp head
    rw [queue] at listed ⊢
    exact (mem_cons.mp listed).resolve_left differs
  · rwa [Function.update_of_ne elsewhere]

theorem detach (session : Nat) : Provenance (runtime.detach session).1 := by
  unfold Runtime.detach
  split
  · exact provenance
  refine provenance.shrink (fun _ inside => (mem_filter.mp inside).1)
    (fun _ inside => (mem_filter.mp inside).1) ?_ rfl
  intro entry inside listed
  have kept : (runtime.reorder entry.key).any (fun id => (runtime.inFlight.filter
      fun entry => entry.session ≠ session).any fun entry => entry.id = id) = true :=
    any_eq_true.mpr ⟨entry.id, listed, any_eq_true.mpr ⟨entry, inside, by simp⟩⟩
  simp only [kept]
  exact listed

theorem accept {request : Request} (fresh : ∀ other ∈ runtime.accepted, other.id ≠ request.id) :
    Provenance (runtime.accept request) := by
  have grows : Grows runtime (runtime.accept request) := ⟨prefix_append _ _, prefix_refl _⟩
  have entries {entry : Entry} (inside : entry ∈ (runtime.accept request).inFlight) :
      entry = { request with } ∨ entry ∈ runtime.inFlight := by
    simpa [Runtime.accept] using inside
  constructor
  · intro answer given
    exact (provenance.answers answer given).imp_left fun known => grows.accepted.subset known
  · exact provenance.once
  · intro answer given entry inside named
    rcases entries inside with rfl | old
    · exact absurd named.symm (fresh _ (provenance.answers answer given).1)
    · exact provenance.closed answer given entry old named
  · intro entry inside event told
    rcases entries inside with rfl | old
    · cases told
    · exact provenance.results entry old event told
  · exact fun slot inside parcel sent =>
      (provenance.blocked slot inside parcel sent).imp_left fun known => known.later grows
  · exact fun push inside => (provenance.pushed push inside).later grows
  · intro entry inside
    simp only [Runtime.accept]
    rcases entries inside with rfl | old
    · simp
    · rcases eq_or_ne entry.key request.key with same | elsewhere
      · rw [same, Function.update_self, ← same]
        exact mem_append_left _ (provenance.queued entry old)
      · rw [Function.update_of_ne elsewhere]
        exact provenance.queued entry old

theorem answer {event : CompletionEvent} {entry : Entry} (accounts : Accounts runtime tally)
    (inside : entry ∈ runtime.inFlight) (named : event.requestId = entry.id)
    (open_ : entry.done = false) (agrees : matchesRequest event entry.toRequest = true) :
    Provenance (runtime.answer event entry) := by
  have grows : Grows runtime (runtime.answer event entry) := ⟨prefix_refl _, prefix_append _ _⟩
  have origin {later : Entry} (listed : later ∈ (runtime.answer event entry).inFlight) :
      ∃ old ∈ runtime.inFlight, later.toRequest = old.toRequest ∧
        (old.id = entry.id → later.done = true ∧ later.result = some event) ∧
        (old.id ≠ entry.id → later = old) := by
    obtain ⟨old, member, rfl⟩ := mem_map.mp listed
    refine ⟨old, member, ?_⟩
    split
    · next same => exact ⟨rfl, fun _ => ⟨rfl, rfl⟩, fun differs => absurd same differs⟩
    · next differs => exact ⟨rfl, fun same => absurd same differs, fun _ => rfl⟩
  constructor
  · refine forall_mem_append.mpr ⟨provenance.answers, forall_mem_singleton.mpr ?_⟩
    exact ⟨(accounts.accepted_of_flight (Runtime.mem_requests inside)).1, named, agrees, open_⟩
  · simp only [Runtime.answer, map_append]
    refine List.Nodup.append provenance.once (nodup_singleton _) ?_
    intro id earlier now
    obtain ⟨given, listed, rfl⟩ := mem_map.mp earlier
    have done := provenance.closed given listed entry inside (mem_singleton.mp now).symm
    rw [open_] at done
    cases done
  · intro given listed later member same
    obtain ⟨old, before, request, answered, kept⟩ := origin member
    rcases eq_or_ne old.id entry.id with hit | other
    · exact (answered hit).1
    · rw [kept other] at same ⊢
      rcases mem_append.mp listed with earlier | now
      · exact provenance.closed given earlier old before same
      · rw [mem_singleton.mp now] at same
        exact absurd same other
  · intro later member result told
    obtain ⟨old, before, request, answered, kept⟩ := origin member
    rcases eq_or_ne old.id entry.id with hit | other
    · rw [(answered hit).2] at told
      cases told
      refine ⟨(event, entry), mem_append_right _ (by simp), rfl, ?_⟩
      rw [request]
      exact accounts.flight_eq inside before hit.symm
    · rw [kept other] at told ⊢
      obtain ⟨given, listed, same⟩ := provenance.results old before result told
      exact ⟨given, mem_append_left _ listed, same⟩
  · exact fun slot listed parcel sent =>
      (provenance.blocked slot listed parcel sent).imp_left fun known => known.later grows
  · exact fun push listed => (provenance.pushed push listed).later grows
  · intro later member
    obtain ⟨old, before, request, _⟩ := origin member
    rw [request]
    exact provenance.queued old before

theorem pushEdge {parcel : Parcel} (known : Known runtime parcel.tag) :
    Provenance (runtime.pushEdge parcel).1 := by
  refine { provenance with pushed := ?_ }
  intro push inside
  simp only [Runtime.pushEdge] at inside
  split at inside
  · rcases mem_append.mp inside with earlier | now
    · exact provenance.pushed push earlier
    · rw [mem_singleton.mp now]
      exact known
  · exact provenance.pushed push inside

theorem park {key : ReorderKey} {pushes : List Parcel} (session : Nat)
    (known : ∀ parcel ∈ pushes, Known runtime parcel.tag ∧ parcel.tag.node = key.1) :
    Provenance (runtime.park key session pushes) := by
  unfold Runtime.park
  split
  · refine { provenance with blocked := ?_ }
    intro slot inside parcel sent
    obtain ⟨old, listed, rfl⟩ := mem_map.mp inside
    split at sent
    · next same =>
        rw [if_pos same]
        rcases mem_append.mp sent with earlier | now
        · rw [← same]
          exact provenance.blocked old listed parcel earlier
        · exact known parcel now
    · next other =>
        rw [if_neg other]
        exact provenance.blocked old listed parcel sent
  · refine { provenance with blocked := ?_ }
    intro slot inside parcel sent
    rcases mem_append.mp inside with before | rest
    · exact provenance.blocked slot (takeWhile_subset _ before) parcel sent
    · rcases mem_cons.mp rest with rfl | after
      · exact known parcel sent
      · exact provenance.blocked slot (dropWhile_subset _ after) parcel sent

theorem storeBlocked {key : ReorderKey} {still : List Parcel}
    (known : ∀ parcel ∈ still, Known runtime parcel.tag ∧ parcel.tag.node = key.1) :
    Provenance (runtime.storeBlocked key still) := by
  unfold Runtime.storeBlocked
  split
  · refine { provenance with blocked := ?_ }
    exact fun slot inside => provenance.blocked slot (mem_filter.mp inside).1
  refine { provenance with blocked := ?_ }
  intro slot inside parcel sent
  obtain ⟨old, listed, rfl⟩ := mem_map.mp inside
  split at sent
  · next same =>
      rw [if_pos same]
      exact known parcel sent
  rename_i other
  rw [if_neg other]
  exact provenance.blocked old listed parcel sent

omit provenance

end Provenance

end GraphEngine.AsyncProvenance
