import GraphEngine.SchedulerRuns

/-!
What the larger sections of the scheduler leave alone: a node's cell only changes
in its flags when topologies retire or the session stops, and only in its binding
and its topology when topologies are swapped.
-/

namespace GraphEngine.SchedulerFrames

open GraphSpecs NodeRuntimes EdgeQueues SchedulerStates SchedulerOperations World

variable (plant : Plant) (world : World)

/-- The cell, but that it may be cancelled. -/
def Cuts (before after : Cell) : Prop :=
  ∃ cancelled, after = { before with cancelled } ∧ (before.cancelled = true → cancelled = true)

theorem cuts_refl (cell : Cell) : Cuts cell cell := ⟨cell.cancelled, rfl, id⟩

theorem Cuts.trans {first second third : Cell} (one : Cuts first second) (two : Cuts second third) :
    Cuts first third := by
  obtain ⟨_, rfl, kept⟩ := one
  obtain ⟨cancelled, rfl, later⟩ := two
  exact ⟨cancelled, rfl, fun before => later (kept before)⟩

theorem cuts_modifyAll (nodes : List NodeRef) (n : NodeRef) : Cuts (world.cells n)
      ((world.modifyAll nodes fun cell => { cell with cancelled := true }).cells n) := by
  simp only [modifyAll]
  split
  · exact ⟨true, rfl, fun _ => rfl⟩
  · exact cuts_refl _

theorem applyFast_cuts (entry : Retired) (n : NodeRef) :
    Cuts (world.cells n) ((world.applyFast entry).cells n) :=
  cuts_modifyAll world entry.nodes n

theorem upgrade_cuts (expired : Bool) (entry : Retired) (n : NodeRef) :
    Cuts (world.cells n) ((world.upgrade plant expired entry).1.cells n) := by
  unfold upgrade
  split
  · exact applyFast_cuts world entry n
  · exact cuts_refl _

variable (settled : World.Settled)

theorem settleOne_cuts (expired : Bool) (entry : Retired) (n : NodeRef) :
    Cuts (settled.world.cells n) ((settleOne plant settled expired entry).world.cells n) := by
  have upgraded := upgrade_cuts plant settled.world expired entry n
  unfold settleOne
  split
  rename_i same
  rw [same] at upgraded
  dsimp only
  split
  · split <;> exact upgraded
  · split <;> exact upgraded

theorem settleAll_cuts (expired : List Bool) (entries : List Retired) (n : NodeRef) :
    Cuts (settled.world.cells n) ((settleAll plant settled expired entries).world.cells n) := by
  induction entries generalizing settled expired with
  | nil => exact cuts_refl _
  | cons entry rest ih => exact (settleOne_cuts plant settled _ entry n).trans (ih _ _)

theorem settle_cuts (expired : List Bool) (n : NodeRef) :
    Cuts (world.cells n) ((world.settle plant expired).world.cells n) :=
  settleAll_cuts plant { world } expired world.retired n

theorem hasten_cuts (n : NodeRef) : Cuts (world.cells n) (world.hasten.cells n) := by
  refine List.foldlRecOn (motive := fun cut : World => Cuts (world.cells n) (cut.cells n)) _ _
    (cuts_refl _) ?_
  exact fun cut cuts entry _ => cuts.trans (applyFast_cuts cut entry n)

theorem announce_cuts (fast : Bool) (n : NodeRef) :
    Cuts (world.cells n) ((world.announce fast).cells n) := by
  cases fast with
  | false => exact cuts_refl _
  | true => exact cuts_modifyAll world world.live n

theorem retire_cell (policy : RemovePolicy) (nodes : List NodeRef) (edges : List ChannelRef)
    (n : NodeRef) : ∃ cancelled retiring, (world.retire plant policy nodes edges).cells n =
        { world.cells n with cancelled, retiring } ∧
      ((world.cells n).cancelled = true → cancelled = true) := by
  cases policy with
  | fast =>
    obtain ⟨cancelled, same, kept⟩ := applyFast_cuts world { nodes, edges } n
    exact ⟨cancelled, (world.cells n).retiring, same, kept⟩
  | drain =>
    simp only [retire, touchAll, modifyAll]
    split
    · exact ⟨(world.cells n).cancelled, true, rfl, id⟩
    · exact ⟨(world.cells n).cancelled, (world.cells n).retiring, rfl, id⟩

theorem injectAll_keeps {Part : Type} (part : World → Part)
    (touched : ∀ world e change, part (world.touch e change) = part world)
    (edges : List ChannelRef) : part (world.injectAll plant edges).1 = part world := by
  induction edges generalizing world with
  | nil => rfl
  | cons e rest ih =>
    have kept := (ih (world.touch e fun _ => ((world.edges e).injectEos marker).2)).trans
      (touched world e _)
    simp only [injectAll]
    split <;> exact kept

theorem writeBack_cells (n : NodeRef) (pushed : Nat) (still : List (ChannelRef × Packet)) :
    ∃ left, (writeBack world n pushed still).1.cells =
      (world.modify n fun cell => { cell with parked := left }).cells := by
  unfold writeBack
  split
  · rename_i empty
    refine ⟨[], ?_⟩
    rw [World.modify, ← empty, Function.update_eq_self]
  · dsimp only
    split <;> exact ⟨_, rfl⟩

/-- The cell, but for its binding. -/
def Rebinds (before after : Cell) : Prop :=
  ∃ ports policy aligned eosPorts, after = { before with ports, policy, aligned, eosPorts }

theorem rebinds_refl (cell : Cell) : Rebinds cell cell :=
  ⟨cell.ports, cell.policy, cell.aligned, cell.eosPorts, rfl⟩

theorem Rebinds.trans {first second third : Cell} (one : Rebinds first second)
    (two : Rebinds second third) : Rebinds first third := by
  obtain ⟨_, _, _, _, rfl⟩ := one
  obtain ⟨ports, policy, aligned, eosPorts, rfl⟩ := two
  exact ⟨ports, policy, aligned, eosPorts, rfl⟩

theorem rebindNode_rebinds (entry : NodeRef × Wiring) (n : NodeRef) :
    Rebinds (world.cells n) ((world.rebindNode entry).cells n) := by
  by_cases here : n = entry.1
  · subst here
    simp only [World.rebindNode, World.modify, Function.update_self]
    exact ⟨_, _, _, _, rfl⟩
  · simp only [World.rebindNode, World.modify, Function.update_of_ne here]
    exact rebinds_refl _

theorem rebindAll_rebinds (entries : List (NodeRef × Wiring)) (n : NodeRef) :
    Rebinds (world.cells n) ((entries.foldl rebindNode world).cells n) := by
  exact List.foldlRecOn (motive := fun later : World => Rebinds (world.cells n) (later.cells n))
    entries _ (rebinds_refl _) fun later known entry _ => known.trans (rebindNode_rebinds later entry n)

theorem swap_cell (next : Plan) (n : NodeRef) :
    ∃ cell, Rebinds (world.cells n) cell ∧ (world.swap next).cells n =
      { cell with topology := if n ∈ next.nodes then some next else (world.cells n).topology } := by
  have rebinds := rebindAll_rebinds world (next.wirings.filter fun entry => entry.1 ∉ next.newNodes) n
  refine ⟨_, rebinds, ?_⟩
  obtain ⟨_, _, _, _, same⟩ := rebinds
  simp only [swap, attach, modifyAll]
  split
  · rfl
  · rw [same]

def Lasts (before after : World) : Prop :=
  ∀ e, (before.edges e).state = .retired → (after.edges e).state = .retired

theorem Lasts.trans {first second third : World} (one : Lasts first second)
    (two : Lasts second third) : Lasts first third :=
  fun e retired => two e (one e retired)

variable {change : EdgeQueue → EdgeQueue} {e : ChannelRef}

theorem lasts_touch
    (kept : (world.edges e).state = .retired → (change (world.edges e)).state = .retired) :
    Lasts world (world.touch e change) := by
  intro other retired
  by_cases here : other = e
  · subst here
    simpa [touch] using kept retired
  · simpa [touch, Function.update_of_ne here] using retired

theorem lasts_touchAll {edges : List ChannelRef}
    (kept : ∀ edge, edge.state = .retired → (change edge).state = .retired) :
    Lasts world (world.touchAll edges change) := by
  intro e retired
  simp only [touchAll]
  split
  · exact kept _ retired
  · exact retired

theorem markRetired_state (fast : Bool) (edge : EdgeQueue) :
    (edge.markRetired fast).state = .retired := by
  cases fast <;> rfl

theorem push_retired {edge : EdgeQueue} (packet : Packet) (retired : edge.state = .retired) :
    (edge.push packet).2.state = .retired := by
  simp [EdgeQueue.push, EdgeQueue.shut, retired]

theorem pop_state (edge : EdgeQueue) : edge.pop.2.state = edge.state := by
  unfold EdgeQueue.pop
  split <;> rfl

theorem applyFast_lasts (entry : Retired) : Lasts world (world.applyFast entry) :=
  lasts_touchAll (world.modifyAll entry.nodes _) fun edge _ => markRetired_state true edge

theorem upgrade_lasts (expired : Bool) (entry : Retired) :
    Lasts world (world.upgrade plant expired entry).1 := by
  unfold upgrade
  split
  · exact applyFast_lasts world entry
  · exact fun _ => id

theorem settleOne_lasts (expired : Bool) (entry : Retired) :
    Lasts settled.world (settleOne plant settled expired entry).world := by
  have upgraded := upgrade_lasts plant settled.world expired entry
  have marked (fast : Bool) (world : World) (edges : List ChannelRef) :
      Lasts world (world.touchAll edges (EdgeQueue.markRetired fast)) :=
    lasts_touchAll world fun edge _ => markRetired_state fast edge
  unfold settleOne
  split
  rename_i same
  rw [same] at upgraded
  dsimp only
  split
  · split <;> exact upgraded.trans (marked true _ _)
  split
  · exact upgraded.trans (marked false _ _)
  · exact upgraded

theorem settleAll_lasts (expired : List Bool) (entries : List Retired) :
    Lasts settled.world (settleAll plant settled expired entries).world := by
  induction entries generalizing settled expired with
  | nil => exact fun _ => id
  | cons entry rest ih => exact (settleOne_lasts plant settled _ entry).trans (ih _ _)

theorem hasten_lasts : Lasts world world.hasten := by
  refine List.foldlRecOn (motive := fun cut => Lasts world cut) _ _ (fun _ => id) ?_
  exact fun cut lasts entry _ => lasts.trans (applyFast_lasts cut entry)

theorem retire_lasts (policy : RemovePolicy) (nodes : List NodeRef) (edges : List ChannelRef) :
    Lasts world (world.retire plant policy nodes edges) := by
  cases policy with
  | fast => exact applyFast_lasts world _
  | drain =>
    refine lasts_touchAll (world.modifyAll nodes _) fun edge retired => ?_
    simp [EdgeQueue.markDraining, EdgeQueue.shut, retired]

theorem injectAll_lasts (edges : List ChannelRef) :
    Lasts world (world.injectAll plant edges).1 := by
  induction edges generalizing world with
  | nil => exact fun _ => id
  | cons e rest ih =>
    have touched : Lasts world (world.touch e fun _ => ((world.edges e).injectEos marker).2) := by
      refine lasts_touch world fun retired => ?_
      simp [EdgeQueue.injectEos, retired]
    have kept := touched.trans (ih _)
    simp only [injectAll]
    split <;> exact kept

theorem rebindPort_lasts {seen : World.Rebinding} (next : InputPortBinding)
    (retired : (seen.edges e).state = .retired) :
    ((rebindPort seen next).edges e).state = .retired := by
  unfold rebindPort
  split
  · exact retired
  split
  · exact retired
  dsimp only
  split
  · exact markRetired_state false _
  · exact retired

theorem rebind_lasts (wiring : Wiring) (cell : Cell) (edges : ChannelRef → EdgeQueue)
    (retired : (edges e).state = .retired) : ((rebind wiring cell edges).2 e).state = .retired := by
  simp only [rebind]
  split
  · exact markRetired_state true _
  · exact List.foldlRecOn (motive := fun seen : World.Rebinding => (seen.edges e).state = .retired)
      wiring.ports _ retired fun _ kept next _ => rebindPort_lasts next kept

theorem swap_lasts (next : Plan) : Lasts world (world.swap next) := by
  refine List.foldlRecOn (motive := fun rebound => Lasts world rebound) _ _ (fun _ => id) ?_
  intro rebound lasts entry _ e retired
  exact rebind_lasts entry.2 (rebound.cells entry.1) rebound.edges (lasts e retired)

end GraphEngine.SchedulerFrames
