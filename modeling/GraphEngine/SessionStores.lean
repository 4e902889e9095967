import GraphEngine.Sessions

/-!
What the phases of a mutation do to the store. Opening, closing and abandoning
only move node states, of nodes that were not open before; submitting only moves
parameters.
-/

namespace GraphEngine.SessionStores

open Values NodeRuntimes Topologies TopologyCoherence Sessions List

def settled (node : NodeRuntime) : NodeRuntime := { node with state := .created }

def Unopened (store : Store) (ref : NodeRef) : Prop :=
  ∃ node, store.nodes[ref]? = some node ∧ node.state = .created

/-- Only states of nodes at touched addresses may differ; none goes back to
`Created`. -/
structure Restated (touched : NodeRef → Prop) (before after : Store) : Prop where
  untouched : ∀ ref, ¬touched ref → after.nodes[ref]? = before.nodes[ref]?
  unopened : ∀ ref, Unopened after ref → Unopened before ref
  settled : ∀ ref : NodeRef, (after.nodes[ref]?).map settled = (before.nodes[ref]?).map settled
  channels : after.channels = before.channels
  bindings : after.bindings = before.bindings

theorem restated_refl (touched : NodeRef → Prop) (store : Store) : Restated touched store store :=
  ⟨fun _ _ => rfl, fun _ unopened => unopened, fun _ => rfl, rfl, rfl⟩

variable {touched : NodeRef → Prop}

theorem restated_trans {first second third : Store} (left : Restated touched first second)
    (right : Restated touched second third) : Restated touched first third where
  untouched := fun ref free => (right.untouched ref free).trans (left.untouched ref free)
  unopened := fun ref unopened => left.unopened ref (right.unopened ref unopened)
  settled := fun ref => (right.settled ref).trans (left.settled ref)
  channels := right.channels.trans left.channels
  bindings := right.bindings.trans left.bindings

theorem getElem?_updateNode (store : Store) (ref : NodeRef) (change : NodeRuntime → NodeRuntime)
    (other : NodeRef) : (updateNode store ref change).nodes[other]? =
      if ref = other then (store.nodes[other]?).map change else store.nodes[other]? := by
  simp only [updateNode, getElem?_modify]
  split <;> simp

variable {ref : NodeRef} {change : NodeRuntime → NodeRuntime} {store : Store}

theorem updateNode_unopened {other : NodeRef}
    (forward : ∀ node, (change node).state = .created → node.state = .created)
    (unopened : Unopened (updateNode store ref change) other) : Unopened store other := by
  obtain ⟨node, stored, created⟩ := unopened
  rw [getElem?_updateNode] at stored
  split at stored
  · obtain ⟨old, found, rfl⟩ := Option.map_eq_some_iff.mp stored
    exact ⟨old, found, forward old created⟩
  · exact ⟨node, stored, created⟩

theorem updateNode_restated (allowed : touched ref)
    (same : ∀ node, settled (change node) = settled node)
    (forward : ∀ node, (change node).state = .created → node.state = .created) :
    Restated touched store (updateNode store ref change) where
  untouched := by
    intro other free
    rw [getElem?_updateNode, if_neg]
    rintro rfl
    exact free allowed
  unopened := fun _ => updateNode_unopened forward
  settled := by
    intro other
    rw [getElem?_updateNode]
    split
    · rw [Option.map_map]
      congr 1
      funext node
      exact same node
    · rfl
  channels := rfl
  bindings := rfl

theorem moveTo_restated (allowed : touched ref) (state : NodeState)
    (onwards : state ≠ .created) : Restated touched store (updateNode store ref (moveTo state)) :=
  updateNode_restated allowed (fun _ => rfl) fun _ created => absurd created onwards

variable {after before : Store}

theorem restated_evolves (restated : Restated touched before after) : before.Evolves after where
  nodes := by
    intro ref node found
    have same := restated.settled ref
    rw [found] at same
    obtain ⟨later, stored, equal⟩ := Option.map_eq_some_iff.mp same
    refine ⟨later, stored, ?_⟩
    have identity : (settled later).identity = (settled node).identity := by rw [equal]
    exact identity
  channels := fun ref channel found => by rw [restated.channels, found]
  bindings := fun ref bound => by rw [restated.bindings]; exact bound

theorem foldl_restated {Item : Type} {step : Store → Item → Store} {items : List Item}
    (steps : ∀ item ∈ items, ∀ store, Restated touched store (step store item)) (store : Store) :
    Restated touched store (items.foldl step store) := by
  exact foldlRecOn items _ (restated_refl touched store) fun later known item inside =>
    restated_trans known (steps item inside later)

variable {topology : RuntimeTopology}

theorem findNode_listed {id : String}
    (located : topology.findNode store id = some ref) : ref ∈ topology.nodes := by
  obtain ⟨nodeId, -, found⟩ := Option.bind_eq_some_iff.mp located
  exact mem_of_find?_eq_some found

/-- A node of the topology that waits to be opened. -/
def Opening (store : Store) (topology : RuntimeTopology) (ref : NodeRef) : Prop :=
  Unopened store ref ∧ ref ∈ topology.nodes

variable {opens : NodeRuntime → Result Unit}

theorem openFrom_restated {start : Store} (ids : List String) :
    ∀ {opened : List NodeRef} {store : Store}, Restated (Opening start topology) start store →
      (∀ ref ∈ opened, Opening start topology ref) →
      Restated (Opening start topology) start (openFrom opens topology ids opened store).2 := by
  induction ids with
  | nil => exact fun restated _ => restated
  | cons id rest ih =>
    intro opened store restated openedBefore
    unfold openFrom
    split
    · exact restated
    rename_i ref located
    split
    · exact restated
    rename_i node stored
    split
    · exact ih restated openedBefore
    rename_i created
    have listed := findNode_listed located
    have opening : Opening start topology ref := by
      refine ⟨restated.unopened ref ⟨node, stored, not_not.mp created⟩, listed⟩
    split
    · refine restated_trans (restated_trans restated
        (moveTo_restated opening .failed nofun)) ?_
      exact foldl_restated (fun other member store =>
        moveTo_restated (openedBefore other member) .closed nofun) _
    · refine ih (restated_trans restated (moveTo_restated opening .ready nofun)) ?_
      exact forall_mem_append.mpr ⟨openedBefore, forall_mem_singleton.mpr opening⟩

theorem openNodes_restated {result : Result Unit}
    (done : openNodes opens topology store = (result, after)) :
    Restated (Opening store topology) store after := by
  have restated : Restated (Opening store topology) store (openNodes opens topology store).2 :=
    openFrom_restated topology.order (restated_refl _ store) nofun
  rwa [done] at restated

theorem abandonCandidate_restated (topology : RuntimeTopology) (store : Store) :
    Restated (· ∈ topology.newNodes) store (abandonCandidate topology store) := by
  refine foldl_restated (fun ref member store => updateNode_restated member ?_ ?_) store
  · intro node
    split <;> rfl
  · intro node created
    split at created
    · exact created
    · cases created

theorem findNode_restated (restated : Restated touched before after) (topology : RuntimeTopology)
    (id : String) : topology.findNode after id = topology.findNode before id := by
  have ids : ∀ (ref : NodeRef) (wanted : Nat),
      ((after.nodes[ref]?).any fun node => decide (node.id = wanted)) =
        (before.nodes[ref]?).any fun node => decide (node.id = wanted) := by
    intro ref wanted
    have reads : ∀ found : Option NodeRuntime,
        (found.any fun node => decide (node.id = wanted)) =
          (found.map settled).any fun node => decide (node.id = wanted) := by
      rintro (_ | node) <;> rfl
    rw [reads, restated.settled ref, ← reads]
  unfold RuntimeTopology.findNode RuntimeTopology.findNodeById
  simp only [ids]

theorem openFrom_opens (ids : List String) : ∀ {opened : List NodeRef} {store after : Store},
      openFrom opens topology ids opened store = (.ok (), after) →
      (∀ ref, Unopened after ref → Unopened store ref) ∧
      ∀ id ∈ ids, ∃ ref, topology.findNode store id = some ref ∧ ¬Unopened after ref := by
  induction ids with
  | nil =>
    intro opened store after done
    cases done
    exact ⟨fun ref unopened => unopened, nofun⟩
  | cons id rest ih =>
    intro opened store after done
    unfold openFrom at done
    split at done
    · cases done
    rename_i ref located
    split at done
    · cases done
    rename_i node stored
    split at done
    · next alreadyOpen =>
        obtain ⟨kept, opensRest⟩ := ih done
        refine ⟨kept, ?_⟩
        intro other member
        rcases mem_cons.mp member with rfl | later
        · refine ⟨ref, located, ?_⟩
          intro unopened
          obtain ⟨same, found, created⟩ := kept ref unopened
          rw [stored, Option.some.injEq] at found
          exact alreadyOpen (found ▸ created)
        · exact opensRest other later
    · next created =>
        split at done
        · cases done
        obtain ⟨kept, opensRest⟩ := ih done
        have moved : Restated (Eq ref) store (updateNode store ref (moveTo .ready)) :=
          moveTo_restated rfl .ready nofun
        have opened : ¬Unopened (updateNode store ref (moveTo .ready)) ref := by
          rintro ⟨later, found, stillCreated⟩
          rw [getElem?_updateNode, if_pos rfl, stored] at found
          cases found
          cases stillCreated
        constructor
        · exact fun other unopened => moved.unopened other (kept other unopened)
        · intro other member
          rcases mem_cons.mp member with rfl | later
          · exact ⟨ref, located, fun unopened => opened (kept ref unopened)⟩
          · obtain ⟨found, locatedOther, isOpen⟩ := opensRest other later
            rw [findNode_restated moved] at locatedOther
            exact ⟨found, locatedOther, isOpen⟩

def Ended (store : Store) (ref : NodeRef) : Prop :=
  ∀ node, store.nodes[ref]? = some node → node.state = .closed ∨ node.state = .failed

theorem abandonNode_ends (store : Store) (ref : NodeRef) : Ended (abandonNode store ref) ref := by
  intro node stored
  rw [abandonNode, getElem?_updateNode, if_pos rfl] at stored
  obtain ⟨old, -, rfl⟩ := Option.map_eq_some_iff.mp stored
  split
  · next ended => exact ended
  · exact .inl rfl

theorem abandonNode_keeps (other : NodeRef) (ended : Ended store ref) :
    Ended (abandonNode store other) ref := by
  by_cases same : other = ref
  · exact same ▸ abandonNode_ends store other
  · intro node stored
    rw [abandonNode, getElem?_updateNode, if_neg same] at stored
    exact ended node stored

theorem foldl_abandonNode_ends (refs : List NodeRef)
    (known : ref ∈ refs ∨ Ended store ref) : Ended (refs.foldl abandonNode store) ref := by
  induction refs generalizing store with
  | nil =>
    rcases known with impossible | ended
    · cases impossible
    · exact ended
  | cons head rest ih =>
    apply ih
    rcases known with inside | ended
    · rcases mem_cons.mp inside with rfl | later
      · exact .inr (abandonNode_ends store _)
      · exact .inl later
    · exact .inr (abandonNode_keeps head ended)

theorem abandonCandidate_ends (store : Store) (new : ref ∈ topology.newNodes) :
    Ended (abandonCandidate topology store) ref :=
  foldl_abandonNode_ends topology.newNodes (.inl new)

/-- A later store in which nodes that were open before are still open. -/
structure Progresses (before after : Store) : Prop where
  evolves : before.Evolves after
  unopened : ∀ ref < before.nodes.length, Unopened after ref → Unopened before ref

theorem progresses_refl (store : Store) : Progresses store store :=
  ⟨store.evolves_refl, fun _ _ unopened => unopened⟩

theorem evolves_length (evolves : before.Evolves after) (bound : ref < before.nodes.length) :
    ref < after.nodes.length := by
  obtain ⟨later, stored, -⟩ := evolves.nodes ref _ (getElem?_eq_getElem bound)
  exact (List.getElem?_eq_some_iff.mp stored).1

theorem progresses_trans {first second third : Store} (left : Progresses first second)
    (right : Progresses second third) : Progresses first third :=
  ⟨Store.evolves_trans left.evolves right.evolves, fun ref bound unopened =>
    left.unopened ref bound (right.unopened ref (evolves_length left.evolves bound) unopened)⟩

theorem restated_progresses (restated : Restated touched before after) : Progresses before after :=
  ⟨restated_evolves restated, fun ref _ => restated.unopened ref⟩

theorem updateNode_progresses (same : ∀ node, (change node).identity = node.identity)
    (forward : ∀ node, (change node).state = .created → node.state = .created) :
    Progresses store (updateNode store ref change) where
  evolves := {
    nodes := by
      intro other node found
      rw [getElem?_updateNode, found]
      split
      · exact ⟨_, rfl, same node⟩
      · exact ⟨node, rfl, rfl⟩
    channels := fun _ _ found => found
    bindings := fun _ bound => bound }
  unopened := fun _ _ => updateNode_unopened forward

theorem foldl_progresses {Item : Type} {step : Store → Item → Store}
    (steps : ∀ store item, Progresses store (step store item)) (items : List Item)
    (store : Store) : Progresses store (items.foldl step store) := by
  exact foldlRecOn items _ (progresses_refl store) fun later known item _ =>
    progresses_trans known (steps later item)

theorem submitTo_identity (request : ParameterUpdateRequest) (node : NodeRuntime) :
    (submitTo request node).identity = node.identity := by
  unfold submitTo
  split <;> rfl

theorem submitTo_state (request : ParameterUpdateRequest) (node : NodeRuntime) :
    (submitTo request node).state = node.state := by
  unfold submitTo
  split <;> rfl

theorem submitUpdates_progresses (updates : List (NodeRef × ParameterUpdateRequest))
    (store : Store) : Progresses store (submitUpdates updates store) := by
  refine foldl_progresses (fun store update => ?_) updates store
  exact updateNode_progresses (submitTo_identity update.2)
    fun node created => (submitTo_state update.2 node).symm.trans created

theorem applyRebinds_nodes (ended : BindingRef → String → Bool) (topology : RuntimeTopology)
    (store : Store) : (applyRebinds ended topology store).nodes = store.nodes := by
  unfold applyRebinds
  generalize topology.rebinds = rebinds
  induction rebinds generalizing store with
  | nil => rfl
  | cons entry rest ih =>
    rw [foldl_cons, ih]
    split <;> rfl

theorem applyRebinds_progresses (ended : BindingRef → String → Bool) (topology : RuntimeTopology)
    (store : Store) : Progresses store (applyRebinds ended topology store) := by
  refine foldl_progresses (fun store entry => ?_) topology.rebinds store
  split
  · exact progresses_refl store
  · exact ⟨⟨fun _ node found => ⟨node, found, rfl⟩, fun _ _ found => found,
      fun ref bound => by simpa using bound⟩, fun _ _ unopened => unopened⟩

theorem grown_progresses {newNodes : List NodeRef} (evolves : before.Evolves after)
    (grown : Grown before after newNodes) : Progresses before after := by
  refine ⟨evolves, ?_⟩
  rintro ref bound ⟨node, stored, created⟩
  obtain ⟨made, nodes, -⟩ := grown
  rw [nodes, getElem?_append_left bound] at stored
  exact ⟨node, stored, created⟩

end GraphEngine.SessionStores
