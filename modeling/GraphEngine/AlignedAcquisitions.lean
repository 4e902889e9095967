import GraphEngine.Acquisitions

/-!
`TryAcquire` under the aligned policy, and what holds under every policy: packets
are conserved, and what is delivered passed its test unless an eviction came
between the test and the pop.
-/

namespace GraphEngine.AlignedAcquisitions

open Values NodeRuntimes EdgeQueues StatePrograms InputBindings AcquireBooks HeadSkims
  Acquisitions List

variable {start before now after : Acquisition} {port bound : Nat} {ref : ChannelRef}
  {packet : Packet} {rest : List Packet}

variable (ready : Ready start now)
include ready

theorem ready_ended (port : Nat) : Ready start (ended port now) := by
  refine { ready with recorded := ?_ }
  intro entry listed marks
  exact (ready.recorded entry listed marks).mono (fun _ lapsed => lapsed)
    (fun _ => List.Subset.refl _) (fun _ old => mem_insert_of_mem old)

theorem take_late (fresh : Fresh now port packet)
    (data : packet.isData = true) {Value : Type} {next : Packet → Acquire Value}
    {otherwise : Acquire Value} {post : Value → Acquisition → Prop}
    (continues : ∀ after taken, Reaches start now after port → weight after < weight now →
      Ensures (next taken) after post) :
    Ensures (do
      match ← take port with
      | none => otherwise
      | some taken => do
          settle .late
          countLate
          next taken) now post := by
  refine ensures_then (take_ensures fresh) ?_
  rintro found last ⟨middle, ref, taken, rest, adrift, still, split, rfl, rfl, same⟩
  have step := ready.takes adrift still split .late (by simp) same data (by simp)
  apply ensures_modify_bind
  apply ensures_modify_bind
  exact continues _ taken step.1 step.2

theorem dropData_ensures {fuel : Nat} (inner : weight now < bound) (enough : weight now < fuel) :
    Ensures (dropData bound port fuel) now fun _ after => Reaches start now after port := by
  induction fuel generalizing now with
  | zero => omega
  | succ fuel step =>
    unfold dropData
    refine ensures_then (skimHead_ensures ready inner) ?_
    rintro head middle ⟨reached, fresh⟩
    have lighter := reached.weight
    cases head with
    | none => exact ensures_pure reached
    | some packet =>
      obtain ⟨served, data⟩ := fresh packet rfl
      apply take_late reached.ready served data
      intro after _ further less
      refine ensures_mono (step further.ready (by omega) (by omega)) ?_
      intro _ last onward
      exact (reached.trans further).trans onward

theorem endAll_ensures {ports : List Nat} (enough : weight now < bound) :
    Ensures (endAll bound ports) now fun _ after =>
      Ready start after ∧ after.batch.packets = now.batch.packets := by
  induction ports generalizing now with
  | nil => exact ensures_pure ⟨ready, rfl⟩
  | cons port rest step =>
    have onward : ∀ middle : Acquisition, Reaches start now middle port →
        Ensures (do endPort port; endAll bound rest) middle fun _ after =>
          Ready start after ∧ after.batch.packets = now.batch.packets := by
      intro middle reached
      have lighter := reached.weight
      apply ensures_modify_bind
      have below : weight (ended port middle) < bound := by
        have same : weight (ended port middle) = weight middle := rfl
        omega
      refine ensures_mono (step (ready_ended reached.ready port) below) ?_
      rintro _ after ⟨final, same⟩
      exact ⟨final, same.trans reached.packets⟩
    unfold endAll
    apply ensures_get_bind
    split
    · refine ensures_then (dropData_ensures ready enough enough) ?_
      exact fun _ middle reached => onward middle reached
    · exact onward now (ready.reaches_adrift (.refl now) port)

omit ready

def Served (state : Acquisition) (port : Nat) (packet : Packet) : Prop :=
  Fresh state port packet ∧ packet.isData = true

theorem Advances.served {ports : List Nat} (advances : Advances start before after ports)
    (outside : port ∉ ports) (served : Served before port packet) : Served after port packet :=
  ⟨advances.spares port outside packet served.1, served.2⟩

theorem earliestHead_ensures {ports : List Nat} (distinct : ports.Nodup)
    {best : Option (Nat × Packet)} (ready : Ready start now) (enough : weight now < bound)
    (held : ∀ found ∈ best, found.1 ∉ ports ∧ Served now found.1 found.2) :
    Ensures (earliestHead bound best ports) now fun result after =>
      Advances start now after ports ∧ ∀ found ∈ result, Served after found.1 found.2 := by
  induction ports generalizing best now with
  | nil => exact ensures_pure ⟨.refl ready [], fun found chosen => (held found chosen).2⟩
  | cons port rest step =>
    rw [nodup_cons] at distinct
    unfold earliestHead
    apply ensures_get_bind
    split
    · refine ensures_then (skimHead_ensures ready enough) ?_
      rintro head middle ⟨reached, fresh⟩
      have first := reaches_advances reached ready.distinct
      have lighter := first.weight
      have kept : ∀ found ∈ best, found.1 ∉ rest ∧ Served middle found.1 found.2 := by
        intro found chosen
        obtain ⟨outside, served⟩ := held found chosen
        rw [mem_cons, not_or] at outside
        exact ⟨outside.2, Advances.served first (by simpa using outside.1) served⟩
      have onward : ∀ choice : Option (Nat × Packet),
          (∀ found ∈ choice, found.1 ∉ rest ∧ Served middle found.1 found.2) →
          Ensures (earliestHead bound choice rest) middle fun result after =>
            Advances start now after (port :: rest) ∧
              ∀ found ∈ result, Served after found.1 found.2 := by
        intro choice good
        refine ensures_mono (step distinct.2 first.ready (by omega) good) ?_
        rintro result after ⟨later, served⟩
        exact ⟨first.trans later (by simp) (by simp), served⟩
      cases head with
      | none => exact onward best kept
      | some packet =>
        dsimp only
        split
        · apply onward
          rintro found ⟨⟩
          exact ⟨distinct.1, fresh packet rfl⟩
        · exact onward best kept
    · have kept : ∀ found ∈ best, found.1 ∉ rest ∧ Served now found.1 found.2 := by
        intro found chosen
        obtain ⟨outside, served⟩ := held found chosen
        exact ⟨fun inside => outside (mem_cons_of_mem port inside), served⟩
      refine ensures_mono (step distinct.2 ready enough kept) ?_
      rintro result after ⟨later, served⟩
      exact ⟨later.trans (.refl later.ready []) (by simp) (by simp), served⟩

theorem referenceHead_ensures {fixed : Option Nat} {ports : List Nat} (distinct : ports.Nodup)
    (ready : Ready start now) (enough : weight now < bound) :
    Ensures (referenceHead bound fixed ports) now fun result after =>
      Ready start after ∧ after.batch.packets = now.batch.packets ∧
        ∀ found ∈ result, Served after found.1 found.2 ∧ weight after ≤ weight now := by
  unfold referenceHead
  cases fixed with
  | none =>
    refine ensures_mono (earliestHead_ensures distinct ready enough (by simp)) ?_
    rintro result after ⟨advanced, served⟩
    exact ⟨advanced.ready, advanced.packets,
      fun found chosen => ⟨served found chosen, advanced.weight⟩⟩
  | some port =>
    refine ensures_then (skimHead_ensures ready enough) ?_
    rintro head middle ⟨reached, fresh⟩
    have lighter := reached.weight
    cases head with
    | some packet =>
      refine ensures_pure ⟨reached.ready, reached.packets, ?_⟩
      rintro found ⟨⟩
      exact ⟨fresh packet rfl, lighter⟩
    | none =>
      apply ensures_get_bind
      split
      · refine ensures_then (endAll_ensures reached.ready (by omega)) ?_
        rintro _ after ⟨final, same⟩
        exact ensures_pure ⟨final, same.trans reached.packets, by simp⟩
      · exact ensures_pure ⟨reached.ready, reached.packets, by simp⟩

variable {target : Int}

include ready

theorem skipLate_ensures {window : Int} {fuel : Nat} {head : Option Packet}
    (inner : weight now < bound) (enough : weight now < fuel)
    (fresh : ∀ packet ∈ head, Served now port packet) :
    Ensures (skipLate bound port target window fuel head) now fun result after =>
      Reaches start now after port ∧
        ∀ packet ∈ result, Served after port packet ∧ int64 (target - window) ≤ packet.pts := by
  induction fuel generalizing head now with
  | zero => omega
  | succ fuel step =>
    unfold skipLate
    cases head with
    | none => exact ensures_pure ⟨ready.reaches_adrift (.refl now) port, by simp⟩
    | some packet =>
      have served := fresh packet rfl
      dsimp only
      split
      next late =>
        apply take_late ready served.1 served.2
        intro middle _ reached less
        refine ensures_then (skimHead_ensures reached.ready (by omega)) ?_
        rintro head skimmed ⟨further, found⟩
        have lighter := further.weight
        refine ensures_mono (step further.ready (by omega) (by omega) found) ?_
        rintro result after ⟨onward, kept⟩
        exact ⟨(reached.trans further).trans onward, kept⟩
      next early =>
        refine ensures_pure ⟨ready.reaches_adrift (.refl now) port, ?_⟩
        rintro other ⟨⟩
        exact ⟨served, by omega⟩

omit ready

def Matches (state : Acquisition) (target window : Int) (port : Nat) : Prop :=
  ∃ packet, Served state port packet ∧ int64 (target - window) ≤ packet.pts ∧
    packet.pts ≤ int64 (target + window)

theorem Advances.matched {ports : List Nat} {window : Int}
    (advances : Advances start before after ports) (outside : port ∉ ports)
    (matched : Matches before target window port) : Matches after target window port := by
  obtain ⟨packet, served, inside⟩ := matched
  exact ⟨packet, Advances.served advances outside served, inside⟩

theorem classify_ensures {window : Int} {reference : Nat} {ports : List Nat}
    (distinct : ports.Nodup) {found : Classified} (ready : Ready start now)
    (enough : weight now < bound)
    (matched : ∀ port ∈ found.matched, port ∉ ports ∧ port ≠ reference ∧
      Matches now target window port) :
    Ensures (classify bound target window reference found ports) now fun result after =>
      Advances start now after (ports.filter (· ≠ reference)) ∧
        ∀ port ∈ result.matched, port ≠ reference ∧ Matches after target window port := by
  induction ports generalizing found now with
  | nil =>
    exact ensures_pure ⟨.refl ready [], fun port listed => (matched port listed).2⟩
  | cons port rest step =>
    rw [nodup_cons] at distinct
    unfold classify
    split
    next same =>
      have kept : ∀ other ∈ found.matched, other ∉ rest ∧ other ≠ reference ∧
          Matches now target window other := fun other listed =>
        ⟨fun inside => (matched other listed).1 (mem_cons_of_mem port inside),
          (matched other listed).2⟩
      refine ensures_mono (step distinct.2 ready enough kept) ?_
      rintro result after ⟨later, good⟩
      simpa [same] using And.intro later good
    next apart =>
      have filtered : (port :: rest).filter (· ≠ reference) =
          port :: rest.filter (· ≠ reference) := filter_cons_of_pos (by simp [apart])
      rw [filtered]
      refine ensures_then (skimHead_ensures ready enough) ?_
      rintro first skimmed ⟨reached, fresh⟩
      have lighter := reached.weight
      refine ensures_then (skipLate_ensures reached.ready (by omega)
        (by omega) fresh) ?_
      rintro head middle ⟨further, kept⟩
      have advanced := reaches_advances (reached.trans further) ready.distinct
      have lightest := advanced.weight
      have old : ∀ other ∈ found.matched, other ∉ rest ∧ other ≠ reference ∧
          Matches middle target window other := by
        intro other listed
        obtain ⟨outside, differs, inside⟩ := matched other listed
        rw [mem_cons, not_or] at outside
        exact ⟨outside.2, differs, Advances.matched advanced (by simpa using outside.1) inside⟩
      have onward : ∀ next : Classified,
          (∀ other ∈ next.matched, other ∉ rest ∧ other ≠ reference ∧
            Matches middle target window other) →
          Ensures (classify bound target window reference next rest) middle
            fun result after =>
              Advances start now after (port :: rest.filter (· ≠ reference)) ∧
                ∀ port ∈ result.matched, port ≠ reference ∧ Matches after target window port := by
        intro next good
        refine ensures_mono (step distinct.2 advanced.ready (by omega) good) ?_
        rintro result after ⟨later, fine⟩
        exact ⟨advanced.trans later (by simp) (by simp), fine⟩
      cases head with
      | none =>
        apply ensures_get_bind
        exact onward _ old
      | some packet =>
        obtain ⟨served, above⟩ := kept packet rfl
        dsimp only
        split
        next below =>
          apply onward
          refine forall_mem_append.mpr ⟨old, forall_mem_singleton.mpr ?_⟩
          exact ⟨distinct.1, apart, packet, served, above, below⟩
        next =>
          apply ensures_get_bind
          exact onward _ old

/-- The test that was made for a delivered packet: the reference packet sets the
target, the others lie in the window around it. -/
def Tested (window : Int) (reference : Nat) (target : Int) (removal : Removal) : Prop :=
  if removal.port = reference then removal.packet.pts = target
  else int64 (target - window) ≤ removal.packet.pts ∧ removal.packet.pts ≤ int64 (target + window)

def DeliveredTested (window : Int) (reference : Nat) (target : Int) (state : Acquisition) : Prop :=
  state.raced = false → ∀ entry ∈ account state, entry.2 = .delivered →
    Tested window reference target entry.1

theorem deliverPorts_ensures {window : Int} {reference : Nat} {chosen ports : List Nat}
    (distinct : ports.Nodup) (ready : Ready start now)
    (tested : DeliveredTested window reference target now)
    (fresh : ∀ port ∈ chosen, port ∈ ports → ∃ packet, Served now port packet ∧
      ∀ ref, Tested window reference target ⟨port, ref, packet⟩) :
    Ensures (deliverPorts chosen ports) now fun _ after =>
      Ready start after ∧ DeliveredTested window reference target after ∧
        after.batch.events = now.batch.events := by
  induction ports generalizing now with
  | nil => exact ensures_pure ⟨ready, tested, rfl⟩
  | cons port rest step =>
    rw [nodup_cons] at distinct
    unfold deliverPorts
    split
    next listed =>
      obtain ⟨packet, served, good⟩ := fresh port listed mem_cons_self
      refine ensures_then (take_ensures served.1) ?_
      rintro found last ⟨middle, ref, taken, others, adrift, still, split, rfl, rfl, same⟩
      have delivered := ready.settles adrift still split .delivered (by simp) same served.2
      have elsewhere := (adrift.elsewhere port).trans
        (took_elsewhere (activeEdge_mem still) taken .delivered)
      have unchanged : middle.batch.events = now.batch.events ∧ middle.raced = now.raced ∧
          account middle = account now := by
        obtain ⟨channels, rfl, -⟩ := adrift
        exact ⟨rfl, rfl, rfl⟩
      apply ensures_modify_bind
      refine ensures_mono (@step (took port ref taken .delivered middle) distinct.2 delivered
        ?_ ?_) ?_
      · intro calm entry member kind
        rw [account_took (ready.adrift adrift).balanced, unchanged.2.2] at member
        have quiet : (remove port ref taken middle).raced = false := by
          simpa [took] using calm
        rcases mem_append.mp member with old | new
        · apply tested _ entry old kind
          simp only [remove, Bool.or_eq_false_iff] at quiet
          rw [← unchanged.2.1]
          exact quiet.1
        · rw [mem_singleton.mp new, same quiet]
          exact good ref
      · intro other member inRest
        obtain ⟨front, ⟨freshOther, data⟩, fine⟩ := fresh other member (mem_cons_of_mem port inRest)
        have apart : other ≠ port := fun equal => distinct.1 (equal ▸ inRest)
        exact ⟨front, ⟨freshOther.elsewhere ready.distinct apart elsewhere, data⟩, fine⟩
      · rintro _ after ⟨final, fine, events⟩
        exact ⟨final, fine, events.trans unchanged.1⟩
    next =>
      exact step distinct.2 ready tested fun other member inRest =>
        fresh other member (mem_cons_of_mem port inRest)

/-- In a call that nobody disturbs, the target is the timestamp of a packet of the port. -/
def Queued (start : Acquisition) (port : Nat) (target : Int) : Prop :=
  start.script = [] → (∀ ref, start.unseen ref = false) → ∃ ref ∈ edgesAt start port,
    ∃ packet ∈ (start.edges ref).queue, packet.isData = true ∧ packet.pts = target

/-- What was delivered passed the tests of one reference packet. -/
def OneReference (start after : Acquisition) : Prop :=
  ∃ reference target, (after.batch.packets = [] ∨ Queued start reference target) ∧
    DeliveredTested start.aligned.windowNs reference target after

structure Aligns (start after : Acquisition) (result : Option InputBatch) : Prop where
  ready : Ready start after
  answers : Answers result after
  tested : OneReference start after

def PolicyTested (start after : Acquisition) : Prop :=
  start.policy = .aligned → OneReference start after

include ready

theorem served_queued (served : Served now port packet) : Queued start port packet.pts := by
  intro still seen
  obtain ⟨⟨ref, active, -, looked⟩, data⟩ := served
  have front : (now.edges ref).queue.head? = some packet := by
    simpa [(ready.calm still seen).2 ref] using looked
  refine ⟨ref, ready.edgesAt port (activeEdge_mem active), packet, ?_, data, rfl⟩
  rw [(ready.kept still).2, mem_append]
  exact .inr (mem_of_head? front)

variable (undelivered : now.batch.packets = [])
include undelivered

theorem undelivered_tested (window : Int) (reference : Nat) (target : Int) :
    DeliveredTested window reference target now := by
  intro _ entry listed kind
  have none := ready.packets.symm.trans undelivered
  rw [map_eq_nil_iff, filter_eq_nil_iff] at none
  exact absurd (by simpa using kind) (none entry listed)

theorem finish_aligns : Ensures finish now fun result after => Aligns start after result := by
  refine ensures_mono (finish_ensures undelivered) ?_
  rintro result after ⟨rfl, answers⟩
  exact ⟨ready, answers, 0, 0, .inl undelivered, undelivered_tested ready undelivered _ _ _⟩

theorem deliverMatched_ensures {reference : Nat} {head : Packet} {matched : List Nat}
    (served : Served now reference head)
    (fits : ∀ port ∈ matched, port ≠ reference ∧ Matches now head.pts start.aligned.windowNs port)
    (ports : List Nat) (distinct : ports.Nodup) :
    Ensures (do
      deliverPorts (reference :: matched) ports
      let batch := (← get).batch
      if batch.packets = [] then finish else return some batch) now
      fun result after => Aligns start after result := by
  refine ensures_then (deliverPorts_ensures distinct ready
    (undelivered_tested ready undelivered start.aligned.windowNs reference head.pts) ?_) ?_
  · intro port listed _
    rcases mem_cons.mp listed with rfl | other
    · exact ⟨head, served, fun ref => by simp [Tested]⟩
    · obtain ⟨apart, packet, fresh, above, below⟩ := fits port other
      exact ⟨packet, fresh, fun ref => by simp [Tested, apart, above, below]⟩
  · rintro _ after ⟨final, tested, -⟩
    apply ensures_get_bind
    dsimp only
    split
    next none => exact finish_aligns final none
    next some =>
      exact ensures_pure ⟨final, .inl ⟨rfl, .inl some⟩, reference, head.pts,
        .inr (served_queued ready served), tested⟩

theorem alignRounds_ensures {fuel : Nat} (inner : weight now < bound) (enough : weight now < fuel) :
    Ensures (alignRounds bound fuel) now fun result after => Aligns start after result := by
  induction fuel generalizing now with
  | zero => omega
  | succ fuel step =>
    unfold alignRounds
    apply ensures_get_bind
    refine ensures_then (referenceHead_ensures nodup_range ready inner) ?_
    rintro found first ⟨readyFirst, packets, chosen⟩
    have still : first.batch.packets = [] := packets.trans undelivered
    cases found with
    | none => exact finish_aligns readyFirst still
    | some found =>
      obtain ⟨reference, head⟩ := found
      obtain ⟨served, lighter⟩ := chosen _ rfl
      refine ensures_then (classify_ensures nodup_range readyFirst
        (by omega) (by simp)) ?_
      rintro classes middle ⟨advanced, fits⟩
      have none : middle.batch.packets = [] := advanced.packets.trans still
      have lightest := advanced.weight
      -- The other ports' heads were skimmed, the reference still waits at its head.
      have kept : Served middle reference head := Advances.served advanced (by simp) served
      split
      · -- The reference has no partner any more: drop it and start over.
        apply take_late advanced.ready kept.1 kept.2
        intro after _ reached less
        exact step reached.ready (reached.packets.trans none) (by omega) (by omega)
      · split
        · exact finish_aligns advanced.ready none
        · rw [ready.aligned] at fits
          exact deliverMatched_ensures advanced.ready none kept fits _ nodup_range

theorem tryAcquire_ensures (enough : weight now < bound) :
    Ensures (tryAcquire bound) now fun result after =>
      Ready start after ∧ Answers result after ∧ PolicyTested start after := by
  unfold tryAcquire
  apply ensures_get_bind
  have same := ready.policy
  cases policy : now.policy with
  | any =>
    refine ensures_mono (acquireAny_ensures ready undelivered enough) ?_
    rintro result after ⟨final, answers⟩
    refine ⟨final, answers, fun aligned => ?_⟩
    rw [← same, policy] at aligned
    cases aligned
  | latest =>
    refine ensures_mono (acquireLatest_ensures ready undelivered enough) ?_
    rintro result after ⟨final, answers⟩
    refine ⟨final, answers, fun aligned => ?_⟩
    rw [← same, policy] at aligned
    cases aligned
  | aligned =>
    refine ensures_mono (alignRounds_ensures ready undelivered enough enough) ?_
    intro result after aligns
    exact ⟨aligns.ready, aligns.answers, fun _ => aligns.tested⟩

end GraphEngine.AlignedAcquisitions
