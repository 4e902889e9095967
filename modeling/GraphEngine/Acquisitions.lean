import GraphEngine.HeadSkims

/-!
`TryAcquire` under the three sync policies. An acquisition returns, every packet
it takes off an edge is on record with its fate, and what it delivers was tested
unless an eviction came between the test and the pop.
-/

namespace GraphEngine.Acquisitions

open NodeRuntimes EdgeQueues StatePrograms InputBindings AcquireBooks HeadSkims
open List hiding choose take

variable {start before now after : Acquisition} {port : Nat} {ref : ChannelRef}
  {packet : Packet} {rest : List Packet}

/-- What a step on some ports leads to: the books are right, nothing is delivered,
and the other ports can still be served. -/
structure Advances (start before after : Acquisition) (ports : List Nat) : Prop where
  ready : Ready start after
  weight : weight after ≤ weight before
  packets : after.batch.packets = before.batch.packets
  spares : ∀ other, other ∉ ports → ∀ packet, Fresh before other packet → Fresh after other packet

theorem Advances.refl (ready : Ready start now) (ports : List Nat) : Advances start now now ports :=
  ⟨ready, Nat.le_refl _, rfl, fun _ _ _ fresh => fresh⟩

theorem Advances.trans {first second third : Acquisition} {one two ports : List Nat}
    (left : Advances start first second one) (right : Advances start second third two)
    (inside : one ⊆ ports) (also : two ⊆ ports) : Advances start first third ports where
  ready := right.ready
  weight := right.weight.trans left.weight
  packets := right.packets.trans left.packets
  spares := fun other outside packet fresh =>
    right.spares other (fun listed => outside (also listed)) packet
      (left.spares other (fun listed => outside (inside listed)) packet fresh)

theorem reaches_advances (reaches : Reaches start before after port)
    (distinct : Distinct before) : Advances start before after [port] where
  ready := reaches.ready
  weight := reaches.weight
  packets := reaches.packets
  spares := by
    intro other outside packet fresh
    have apart : other ≠ port := by simpa using outside
    exact fresh.elsewhere distinct apart reaches.elsewhere

def Answers (result : Option InputBatch) (after : Acquisition) : Prop :=
  (result = some after.batch ∧ (after.batch.packets ≠ [] ∨ after.batch.events ≠ [])) ∨
    (result = none ∧ after.batch.packets = [] ∧ after.batch.events = [])

theorem finish_ensures (undelivered : now.batch.packets = []) :
    Ensures finish now fun result after => after = now ∧ Answers result after := by
  unfold finish
  apply ensures_get_bind
  apply ensures_pure
  refine ⟨rfl, ?_⟩
  by_cases empty : now.batch.events = []
  · exact .inr ⟨by simp [empty], undelivered, empty⟩
  · exact .inl ⟨by simp [empty], .inr empty⟩

section Any

variable {bound : Nat}

theorem skimPorts_ensures {ports : List Nat} (distinct : ports.Nodup)
    (ready : Ready start now) (enough : weight now < bound) :
    Ensures (skimPorts bound ports) now fun heads after => Advances start now after ports ∧
        ∀ (index : Nat) (packet : Packet), heads[index]? = some (some packet) →
          ∃ port, ports[index]? = some port ∧ Fresh after port packet ∧ packet.isData = true := by
  induction ports generalizing now with
  | nil => exact ensures_pure ⟨.refl ready [], by simp⟩
  | cons port rest step =>
    rw [nodup_cons] at distinct
    unfold skimPorts
    refine ensures_then (skimHead_ensures ready enough) ?_
    rintro head middle ⟨reached, fresh⟩
    have first := reaches_advances reached ready.distinct
    have lighter := first.weight
    refine ensures_then (step distinct.2 first.ready (by omega)) ?_
    rintro heads after ⟨later, others⟩
    apply ensures_pure
    refine ⟨first.trans later (by simp) (by simp), ?_⟩
    intro index packet found
    cases index with
    | zero =>
      simp only [getElem?_cons_zero, Option.some_inj] at found
      obtain ⟨served, data⟩ := fresh packet found
      exact ⟨port, rfl, later.spares port distinct.1 packet served, data⟩
    | succ index => simpa using others index packet (by simpa using found)

theorem choose_some {state : Acquisition} {heads : List (Option Packet)} {port : Nat}
    (chosen : choose state heads = some port) :
    port < state.ports.length ∧ ∃ packet, heads[port]? = some (some packet) := by
  have ready : port ∈ (range state.ports.length).filter
      fun port => (heads[port]?.join).isSome := by
    unfold choose at chosen
    rcases Option.or_eq_some_iff.mp chosen with required | ⟨-, optional⟩
    · exact mem_of_find?_eq_some required
    · exact mem_of_find?_eq_some optional
  rw [mem_filter, mem_range] at ready
  refine ⟨ready.1, ?_⟩
  obtain ⟨packet, joined⟩ := Option.isSome_iff_exists.mp ready.2
  exact ⟨packet, Option.join_eq_some_iff.mp joined⟩

theorem acquireAny_ensures (ready : Ready start now) (undelivered : now.batch.packets = [])
    (enough : weight now < bound) : Ensures (acquireAny bound) now fun result after =>
      Ready start after ∧ Answers result after := by
  unfold acquireAny
  apply ensures_get_bind
  refine ensures_then (skimPorts_ensures nodup_range ready enough) ?_
  rintro heads skimmed ⟨advanced, fresh⟩
  have none : skimmed.batch.packets = [] := advanced.packets.trans undelivered
  apply ensures_get_bind
  cases chosen : choose skimmed heads with
  | none =>
    refine ensures_mono (finish_ensures none) ?_
    rintro result after ⟨rfl, answers⟩
    exact ⟨advanced.ready, answers⟩
  | some port =>
    obtain ⟨below, packet, found⟩ := choose_some chosen
    obtain ⟨other, listed, served, data⟩ := fresh port packet found
    have same : other = port := by
      obtain ⟨-, rfl⟩ := List.getElem?_eq_some_iff.mp listed
      simp
    subst same
    refine ensures_then (take_ensures served) ?_
    rintro taken after ⟨middle, ref, taken, rest, adrift, still, split, rfl, rfl, same⟩
    have final := advanced.ready.settles adrift still split .delivered (by simp) same data
    apply ensures_modify_bind
    apply ensures_get_bind
    apply ensures_pure
    exact ⟨final, .inl ⟨rfl, .inl (by simp)⟩⟩

end Any

variable {newest : Option Packet}

section Latest

variable {bound : Nat}

theorem findTrigger_ensures {ports : List Nat} (ready : Ready start now)
    (enough : weight now < bound) : Ensures (findTrigger bound ports) now fun found after =>
      Advances start now after ports ∧ ∀ port, found = some port →
        ∃ packet, Fresh after port packet ∧ packet.isData = true := by
  induction ports generalizing now with
  | nil => exact ensures_pure ⟨.refl ready [], by simp⟩
  | cons port rest step =>
    unfold findTrigger
    apply ensures_get_bind
    split
    · refine ensures_then (skimHead_ensures ready enough) ?_
      rintro head middle ⟨reached, fresh⟩
      have first := reaches_advances reached ready.distinct
      have lighter := first.weight
      cases head with
      | some packet =>
        refine ensures_pure ⟨first.trans (.refl first.ready []) (by simp) (by simp), ?_⟩
        rintro other ⟨⟩
        exact ⟨packet, fresh packet rfl⟩
      | none =>
        refine ensures_mono (step first.ready (by omega)) ?_
        rintro found after ⟨later, others⟩
        exact ⟨first.trans later (by simp) (by simp), others⟩
    · refine ensures_mono (step ready enough) ?_
      rintro found after ⟨later, others⟩
      exact ⟨later.trans (.refl later.ready []) (by simp) (by simp), others⟩

/-- The newest packet taken so far is the only removal without a fate. -/
structure Holding (start now : Acquisition) (port : Nat) (newest : Option Packet) : Prop extends
    Books start now where
  distinct : Distinct now
  recorded : ∀ entry ∈ account now, entry.2 = .marker → Recorded start now entry.1
  open' : now.removed.length = now.fates.length + newest.toList.length
  last : ∀ packet, newest = some packet →
    (∃ ref, now.removed[now.fates.length]? = some ⟨port, ref, packet⟩) ∧
      (now.raced = false → packet.isData = true)

theorem Holding.ofReady (ready : Ready start now) (port : Nat) : Holding start now port none :=
  { ready with open' := by simp [ready.balanced], last := by simp }

theorem Holding.adrift (holding : Holding start now port newest) (adrift : Adrift now after) :
    Holding start after port newest := by
  have ledger := holding.toLedger.adrift adrift
  have records := holding.toRecords.adrift adrift
  obtain ⟨channels, rfl, drift⟩ := adrift
  refine { ledger, records with
    distinct := holding.distinct, recorded := ?_, open' := holding.open', last := holding.last }
  exact fun entry listed marks =>
    (holding.recorded entry listed marks).adrift ⟨channels, rfl, drift⟩

def superseded (newest : Option Packet) (port : Nat) (state : Acquisition) : Acquisition :=
  match newest with
  | none => state
  | some packet => entered port packet .stale state

theorem remove_keeps (removal : Removal) (recorded : Recorded start now removal) (port : Nat)
    (ref : ChannelRef) (packet : Packet) : Recorded start (remove port ref packet now) removal := by
  have kept := took_keeps removal recorded port ref packet .marker
  exact kept.mono (fun _ lapsed => lapsed) (fun _ => List.Subset.refl _) (List.Subset.refl _)

theorem Holding.supersedes (holding : Holding start now port newest)
    (served : activeEdge now port = some ref) (front : (now.edges ref).queue = packet :: rest)
    (data : (remove port ref packet now).raced = false → packet.isData = true) :
    Holding start (superseded newest port (remove port ref packet now)) port (some packet) := by
  have ledger := holding.toLedger.remove served front
  have records := holding.toRecords.remove port ref packet
  have kept : ∀ entry ∈ account now, entry.2 = .marker →
      Recorded start (remove port ref packet now) entry.1 := fun entry listed marks =>
    remove_keeps entry.1 (holding.recorded entry listed marks) port ref packet
  have same : account (remove port ref packet now) = account now :=
    zip_pending now.removed now.fates ⟨port, ref, packet⟩ holding.pending
  have length := holding.open'
  cases newest with
  | none =>
    have balanced : now.removed.length = now.fates.length := by simpa using length
    refine { ledger, records with
      distinct := holding.distinct, recorded := ?_, open' := ?_, last := ?_ }
    · simp only [superseded, same]
      exact kept
    · simp [superseded, remove, balanced]
    · rintro other ⟨⟩
      exact ⟨⟨ref, by simp [superseded, remove, ← balanced]⟩, data⟩
  | some old =>
    obtain ⟨⟨oldRef, pending⟩, oldData⟩ := holding.last old rfl
    have open' : now.removed.length = now.fates.length + 1 := by simpa using length
    have first : (remove port ref packet now).removed[
        (remove port ref packet now).fates.length]? = some ⟨port, oldRef, old⟩ := by
      simp only [remove]
      rw [getElem?_append_left (by omega)]
      exact pending
    have settled := records.enter ledger first .stale (by
      intro calm
      simp only [remove, Bool.or_eq_false_iff] at calm
      exact oldData calm.1)
    have booked := Ledger.enter ledger port old .stale
    refine { booked, settled with
      distinct := holding.distinct, recorded := ?_, open' := ?_, last := ?_ }
    · have zipped : account (superseded (some old) port (remove port ref packet now)) =
          account now ++ [(⟨port, oldRef, old⟩, .stale)] := by
        rw [← same]
        exact zip_settled _ _ _ .stale first
      rw [zipped]
      exact forall_mem_append.mpr ⟨kept, forall_mem_singleton.mpr (by simp)⟩
    · simp [superseded, entered, remove, open']
    · rintro other ⟨⟩
      refine ⟨⟨ref, ?_⟩, data⟩
      simp [superseded, entered, remove, ← open']

theorem superseded_weight (newest : Option Packet) (port : Nat) (state : Acquisition) :
    weight (superseded newest port state) = weight state := by
  cases newest <;> rfl

theorem superseded_elsewhere (newest : Option Packet) (inside : ref ∈ edgesAt now port)
    (packet : Packet) :
    Elsewhere now (superseded newest port (remove port ref packet now)) port := by
  have removed := took_elsewhere inside packet .marker
  cases newest <;> exact { removed with }

theorem takeNewest_ensures {fuel : Nat} {newest : Option Packet}
    (holding : Holding start now port newest) (enough : weight now < fuel) :
    Ensures (takeNewest port fuel newest) now fun result after =>
      Holding start after port result ∧ Elsewhere now after port ∧
        weight after ≤ weight now ∧ after.batch = now.batch := by
  induction fuel generalizing newest now with
  | zero => omega
  | succ fuel step =>
    have stays : ∀ middle : Acquisition, Adrift now middle →
        Holding start middle port newest ∧ Elsewhere now middle port ∧
          weight middle ≤ weight now ∧ middle.batch = now.batch := by
      intro middle adrift
      refine ⟨holding.adrift adrift, adrift.elsewhere port,
        adrift_weight adrift holding.distinct, ?_⟩
      obtain ⟨channels, rfl, -⟩ := adrift
      rfl
    unfold takeNewest
    refine ensures_then active_ensures ?_
    rintro found first ⟨toFirst, rfl⟩
    cases served : activeEdge now port with
    | none => exact ensures_pure (stays first toFirst)
    | some ref =>
      refine ensures_then peek_ensures ?_
      rintro head looked ⟨middle, toMiddle, rfl, rfl⟩
      have adrift := Adrift.trans toFirst toMiddle
      have servedMiddle : activeEdge middle port = some ref := (adrift.activeEdge port).trans served
      have inside := activeEdge_mem servedMiddle
      obtain ⟨kept, elsewhere, lighter, batch⟩ := stays middle adrift
      -- A look changes nothing but the note of evictions on this edge.
      have seen : Holding start (look ref middle) port newest :=
        { Ledger.look kept.toLedger ref, kept with }
      have beside : Elsewhere now (look ref middle) port := elsewhere.trans (look_elsewhere inside)
      cases front : (middle.edges ref).queue.head? with
      | none => exact ensures_pure ⟨seen, beside, lighter, batch⟩
      | some packet =>
        simp only
        split
        · exact ensures_pure ⟨seen, beside, lighter, batch⟩
        next control =>
          have filled : (middle.edges ref).queue ≠ [] := by
            intro empty
            simp [empty] at front
          have data : packet.isData = true := by
            simpa [Packet.isData] using control
          have fresh : Fresh (look ref middle) port packet :=
            ⟨ref, servedMiddle, filled, .inr front⟩
          refine ensures_then (take_ensures fresh) ?_
          rintro found last ⟨late, edge, taken, rest, toLate, still, split, rfl, rfl, same⟩
          have moved := seen.adrift toLate
          have inLate := activeEdge_mem still
          have next := moved.supersedes still split fun calm => by
            rw [same calm]
            exact data
          have less : weight (superseded newest port (remove port edge taken late)) <
              weight now := by
            rw [superseded_weight]
            have popped := remove_weight inLate split
            have drifted := adrift_weight toLate seen.distinct
            have looked : weight (look ref middle) = weight middle := rfl
            omega
          have aside := (beside.trans (toLate.elsewhere port)).trans
            (superseded_elsewhere newest inLate taken)
          have sameBatch : (superseded newest port (remove port edge taken late)).batch =
              now.batch := by
            obtain ⟨channels, rfl, -⟩ := toLate
            cases newest <;> exact batch
          have further := step next (by omega)
          have final : Ensures (takeNewest port fuel (some taken))
              (superseded newest port (remove port edge taken late))
              fun result after => Holding start after port result ∧
                Elsewhere now after port ∧ weight after ≤ weight now ∧
                after.batch = now.batch := by
            refine ensures_mono further ?_
            rintro result after ⟨held, onward, lighter, same⟩
            exact ⟨held, aside.trans onward, by omega, same.trans sameBatch⟩
          cases newest with
          | none => exact final
          | some old =>
            apply ensures_modify_bind
            apply ensures_modify_bind
            exact final

theorem Holding.delivers (holding : Holding start now port (some packet)) :
    Ready start (entered port packet .delivered now) := by
  obtain ⟨⟨ref, pending⟩, data⟩ := holding.last packet rfl
  have open' : now.removed.length = now.fates.length + 1 := holding.open'
  have booked := Ledger.enter holding.toLedger port packet .delivered
  have settled := holding.toRecords.enter holding.toLedger pending .delivered data
  refine { booked, settled with balanced := ?_, distinct := holding.distinct, recorded := ?_ }
  · simp [entered, open']
  · have zipped : account (entered port packet .delivered now) =
        account now ++ [(⟨port, ref, packet⟩, .delivered)] :=
      zip_settled now.removed now.fates _ Fate.delivered pending
    rw [zipped]
    exact forall_mem_append.mpr ⟨holding.recorded, forall_mem_singleton.mpr (by simp)⟩

theorem serveNewest_ensures (ready : Ready start now) (enough : weight now < bound) :
    Ensures (serveNewest bound port) now fun _ after =>
      Ready start after ∧ weight after ≤ weight now ∧
        now.batch.packets <+: after.batch.packets := by
  unfold serveNewest
  refine ensures_then (skimHead_ensures ready enough) ?_
  rintro head middle ⟨reached, -⟩
  have lighter := reached.weight
  have same := reached.packets
  cases head with
  | none => exact ensures_pure ⟨reached.ready, lighter, by rw [same]⟩
  | some packet =>
    refine ensures_then (takeNewest_ensures (.ofReady reached.ready port)
      (by omega)) ?_
    rintro newest after ⟨holding, -, lightest, batch⟩
    cases newest with
    | none =>
      have balanced : after.fates.length = after.removed.length := by
        simpa using holding.open'.symm
      refine ensures_pure ⟨{ holding with balanced := balanced }, by omega, ?_⟩
      rw [batch, same]
    | some taken =>
      apply ensures_modify
      refine ⟨holding.delivers, lightest.trans lighter, ?_⟩
      simp [batch, same]

theorem serveOthers_ensures {trigger : Nat} {ports : List Nat}
    (ready : Ready start now) (enough : weight now < bound) :
    Ensures (serveOthers bound trigger ports) now fun _ after =>
      Ready start after ∧ now.batch.packets <+: after.batch.packets := by
  induction ports generalizing now with
  | nil => exact ensures_pure ⟨ready, prefix_rfl⟩
  | cons port rest step =>
    unfold serveOthers
    split
    · refine ensures_then (serveNewest_ensures ready enough) ?_
      rintro _ middle ⟨between, lighter, more⟩
      refine ensures_mono (step between (by omega)) ?_
      rintro _ after ⟨final, most⟩
      exact ⟨final, more.trans most⟩
    · exact step ready enough

theorem acquireLatest_ensures (ready : Ready start now) (undelivered : now.batch.packets = [])
    (enough : weight now < bound) : Ensures (acquireLatest bound) now fun result after =>
      Ready start after ∧ Answers result after := by
  unfold acquireLatest
  apply ensures_get_bind
  refine ensures_then (findTrigger_ensures ready enough) ?_
  rintro found middle ⟨advanced, fresh⟩
  have none : middle.batch.packets = [] := advanced.packets.trans undelivered
  have lighter := advanced.weight
  cases found with
  | none =>
    refine ensures_mono (finish_ensures none) ?_
    rintro result after ⟨rfl, answers⟩
    exact ⟨advanced.ready, answers⟩
  | some trigger =>
    obtain ⟨packet, served, data⟩ := fresh trigger rfl
    refine ensures_then (take_ensures served) ?_
    rintro taken last ⟨late, ref, taken, rest, adrift, still, split, rfl, rfl, same⟩
    have less := adrift_weight adrift advanced.ready.distinct
    have delivered := advanced.ready.settles adrift still split .delivered (by simp) same data
    have least : weight (took trigger ref taken .delivered late) < bound := by
      have popped := took_weight (activeEdge_mem still) split .delivered
      omega
    apply ensures_modify_bind
    refine ensures_then (serveOthers_ensures delivered least) ?_
    rintro _ after ⟨final, more⟩
    apply ensures_get_bind
    apply ensures_pure
    refine ⟨final, .inl ⟨rfl, .inl ?_⟩⟩
    intro empty
    rw [empty] at more
    simp at more

end Latest

end GraphEngine.Acquisitions
