import GraphEngine.SlotBooks
import Mathlib.Algebra.Order.Group.Multiset
import Mathlib.Data.Multiset.Range
import Mathlib.Tactic.Abel

/-!
The books of the retired topologies. Every publish has one entry, which waits in the
scheduler's list, is in the hands of the thread that found it complete, or has had
its callback.
-/

namespace GraphEngine.RetirementBooks

open GraphSpecs NodeRuntimes EdgeQueues Interleavings Ownership SchedulerStates Multiset World
open SchedulerOperations SchedulerRuns SchedulerFrames SlotBooks

variable {plant : Plant} {entry : Retired} {world : World}

def Gone (world : World) (entry : Retired) : Prop :=
  (∀ n ∈ entry.nodes, world.finished n = true) ∧ ∀ e ∈ entry.edges, (world.edges e).state = .retired

instance (world : World) (entry : Retired) : Decidable (Gone world entry) :=
  inferInstanceAs (Decidable (_ ∧ _))

/-- The entry is about what its publish removed, and is timed out if and only if a
deadline has cut its drain short. -/
def Faithful (world : World) (entry : Retired) : Prop :=
  world.removals[entry.number]? = some (entry.nodes, entry.edges) ∧
    (entry.timedOut = true ↔ entry.number ∈ world.expirations)

instance (world : World) (entry : Retired) : Decidable (Faithful world entry) :=
  inferInstanceAs (Decidable (_ ∧ _))

/-- The books, with the entries in the hands of threads. -/
structure Kept (world : World) (held : Multiset Retired) : Prop where
  numbers : ((world.retired : Multiset Retired) + held + world.completions).map Retired.number =
    range world.removals.length
  faithful : ∀ entry ∈ (world.retired : Multiset Retired) + held + world.completions,
    Faithful world entry
  gone : ∀ entry ∈ held + (world.completions : Multiset Retired), Gone world entry
  expired : ∀ number ∈ world.expirations, number < world.removals.length

/-- No store takes a node out of closed or failed. -/
def lasting : Rules World Op Arrival where
  meets world op :=
    match op with
    | .setState n new => !world.finished n || isOver new
    | _ => true

def books (plant : Plant) : Discipline (scheduler plant) lasting (Multiset Retired) where
  Holds := Kept
  Grows _ _ := True
  grows_refl _ := trivial
  grows_trans _ _ := trivial
  grows _ _ := trivial

/-- Nodes that were closed or failed still are, and so are retired edges. -/
structure Ends (before after : World) : Prop where
  nodes : ∀ n, before.finished n = true → after.finished n = true
  edges : Lasts before after

variable {after before : World}

theorem Ends.gone (ends : Ends before after) (gone : Gone before entry) : Gone after entry :=
  ⟨fun n inside => ends.nodes n (gone.1 n inside), fun e inside => ends.edges e (gone.2 e inside)⟩

def records (world : World) :
    List Retired × List (List NodeRef × List ChannelRef) × List Nat × List Retired :=
  (world.retired, world.removals, world.expirations, world.completions)

def summary (entry : Retired) : Nat × List NodeRef × List ChannelRef × Bool :=
  (entry.number, entry.nodes, entry.edges, entry.timedOut)

theorem Kept.relabel {held : Multiset Retired} (kept : Kept before held) (label : Retired → Retired)
    (labels : ∀ entry, summary (label entry) = summary entry)
    (same : records after = (before.retired.map label, (records before).2))
    (ends : Ends before after) : Kept after held := by
  simp only [records, Prod.mk.injEq] at same
  obtain ⟨retired, removals, expirations, completions⟩ := same
  have numbered : Retired.number ∘ label = Retired.number :=
    funext fun entry => congrArg Prod.fst (labels entry)
  constructor
  · have numbers := kept.numbers
    rw [map_add, map_add] at numbers ⊢
    rw [retired, removals, completions, ← map_coe, map_map, numbered]
    exact numbers
  · intro entry inside
    rw [retired, completions] at inside
    unfold Faithful
    rw [removals, expirations]
    rw [mem_add, mem_add] at inside
    rcases inside with (inside | inside) | inside
    · obtain ⟨old, listed, rfl⟩ := List.mem_map.mp inside
      have faithful := kept.faithful old (by simp [listed])
      simp only [summary, Prod.mk.injEq] at labels
      obtain ⟨number, nodes, edges, timed⟩ := labels old
      rw [number, nodes, edges, timed]
      exact faithful
    · exact kept.faithful entry (by simp [inside])
    · exact kept.faithful entry (by rw [mem_add]; exact .inr inside)
  · intro entry inside
    rw [completions] at inside
    exact ends.gone (kept.gone entry inside)
  · rw [expirations, removals]
    exact kept.expired

theorem Kept.congr {held : Multiset Retired} (kept : Kept before held) (ends : Ends before after)
    (same : records after = records before) : Kept after held := by
  apply kept.relabel id (fun _ => rfl) _ ends
  rw [same, List.map_id]
  rfl

variable {choice : Choice} {op : Op} {answer : op.Answer}

theorem perform_lasts (ran : perform plant world op choice = some (after, answer)) :
    Lasts world after := by
  cases op <;> simp only [perform] at ran
  case push e packet =>
    cases ran
    exact lasts_touch world fun retired => push_retired packet retired
  case block e =>
    cases ran
    exact lasts_touch world fun retired => by simp [EdgeQueue.block, retired]
  case unblock e | undoBlock e =>
    cases ran
    exact lasts_touch world fun retired => by simp [EdgeQueue.unblock, retired]
  case retireEdge e fast =>
    cases ran
    exact lasts_touch world fun _ => markRetired_state fast _
  case takeHead n port =>
    simp only [takeHead] at ran
    split at ran
    · cases ran
      exact fun _ => id
    · cases ran
      exact lasts_touch world fun retired => by rw [pop_state, retired]
  case inject =>
    cases ran
    exact injectAll_lasts plant world world.pendingInject
  case complete =>
    cases ran
    exact settleAll_lasts plant { world } choice.expired world.retired
  case swap next =>
    split at ran
    · cases ran
      exact fun _ => id
    split at ran
    · cases ran
    · cases ran
      exact swap_lasts world next
  case retire policy nodes edges =>
    cases ran
    exact retire_lasts plant world policy nodes edges
  case announce fast =>
    cases ran
    cases fast <;> exact fun _ => id
  case hasten =>
    cases ran
    exact hasten_lasts world
  case writeBack n pushed still =>
    have written : (writeBack world n pushed still).1 = after :=
      congrArg Prod.fst (Option.some.inj ran)
    rw [← written]
    unfold writeBack
    split
    · exact fun _ => id
    · dsimp only
      split <;> exact fun _ => id
  all_goals first
    | (cases ran; exact fun _ => id)
    | (split at ran <;> cases ran <;> exact fun _ => id)

/-- The operations that leave the records alone; no swap starts from a node that is
over. -/
@[reducible]
def isModest : Op → Bool
  | .complete | .onComplete _ | .retire .. | .hasten => false
  | .casState _ old _ => !isOver old
  | _ => true

theorem modest_records (modest : isModest op = true)
    (ran : perform plant world op choice = some (after, answer)) :
    records after = records world := by
  cases op <;> simp only [isModest, Bool.false_eq_true] at modest <;> simp only [perform] at ran
  case takeHead n port =>
    simp only [takeHead] at ran
    split at ran <;> cases ran <;> rfl
  case inject =>
    cases ran
    exact injectAll_keeps plant world records (fun _ _ _ => rfl) world.pendingInject
  case swap next =>
    split at ran
    · cases ran
      rfl
    split at ran
    · cases ran
    · cases ran
      exact List.foldlRecOn (motive := fun rebound => records rebound = records world) _ _ rfl
        fun _ same _ _ => same
  case announce fast =>
    cases ran
    cases fast <;> rfl
  case writeBack n pushed still =>
    have written : (writeBack world n pushed still).1 = after :=
      congrArg Prod.fst (Option.some.inj ran)
    rw [← written]
    unfold writeBack
    split
    · rfl
    · dsimp only
      split <;> rfl
  all_goals first
    | (cases ran; rfl)
    | (split at ran <;> cases ran <;> rfl)

theorem finished_update {cells : NodeRef → Cell} {m n : NodeRef} {cell : Cell}
    (kept : n = m → isOver cell.state = true) (past : isOver (cells n).state = true) :
    isOver (Function.update cells m cell n).state = true := by
  by_cases here : n = m
  · subst here
    rw [Function.update_self]
    exact kept rfl
  · rw [Function.update_of_ne here]
    exact past

theorem modest_ends (modest : isModest op = true) (meets : lasting.meets world op = true)
    (ran : perform plant world op choice = some (after, answer)) : Ends world after := by
  refine ⟨fun n past => ?_, perform_lasts ran⟩
  by_cases plain : isPlain op = true
  · have same := plain_core plain ran n
    simp only [core, Prod.mk.injEq] at same
    unfold finished
    rw [same.2.1]
    exact past
  · cases op <;> simp only [isPlain, not_true_eq_false] at plain <;>
      simp only [perform] at ran
    case setState m new =>
      cases ran
      refine finished_update ?_ past
      rintro rfl
      simpa [lasting, past, store] using meets
    case casState m old new =>
      split at ran
      · rename_i found
        cases ran
        refine finished_update ?_ past
        rintro rfl
        rw [finished, found] at past
        simp [past] at modest
      · cases ran
        exact past
    case takeSlot m | confirm m =>
      split at ran
      · cases ran
        refine finished_update ?_ past
        rintro rfl
        exact past
      · cases ran
        exact past
    all_goals
      cases ran
      refine finished_update ?_ past
      rintro rfl
      exact past

variable {base : World}

theorem trades_modest (modest : isModest op = true) : (books plant).Trades base op 0 fun _ => 0 :=
  fun _ _ _ _ _ _ kept meets ran =>
    Kept.congr kept (modest_ends modest meets ran) (modest_records modest ran)

section Entries

variable {held : Multiset Retired} {left : List Retired}

theorem trades_onComplete (entry : Retired) :
    (books plant).Trades base (.onComplete entry) {entry} fun _ => 0 := by
  intro world others choice after answer _ kept _ ran
  cases ran
  have same : 0 + others + ↑(world.completions ++ [entry]) =
      ({entry} + others + world.completions : Multiset Retired) := by
    rw [← coe_add]
    abel
  have moved : (world.retired : Multiset Retired) + (0 + others) + ↑(world.completions ++ [entry]) =
      (world.retired : Multiset Retired) + ({entry} + others) + world.completions := by
    rw [add_assoc, same, ← add_assoc]
  constructor
  · rw [moved]
    exact kept.numbers
  · intro each inside
    rw [moved] at inside
    exact kept.faithful each inside
  · intro each inside
    rw [same] at inside
    exact kept.gone each inside
  · exact kept.expired

theorem coe_middle (left right : List Retired) (entry : Retired) :
    (↑(left ++ entry :: right) : Multiset Retired) = entry ::ₘ ↑(left ++ right) :=
  coe_eq_coe.mpr List.perm_middle

variable {right : List Retired} (kept : Kept world held)
include kept

variable (found : world.retired = left ++ entry :: right)
include found

theorem Kept.alone : ∀ other ∈ (↑(left ++ right) : Multiset Retired) + held + world.completions,
      other.number ≠ entry.number := by
  intro other inside same
  have numbers := kept.numbers
  rw [found, coe_middle, cons_add, cons_add, map_cons] at numbers
  have distinct := nodup_range world.removals.length
  rw [← numbers, nodup_cons] at distinct
  exact distinct.1 (same ▸ mem_map_of_mem Retired.number inside)

theorem Kept.upgrade : Kept { world with
      retired := left ++ { entry with fastApplied := true, timedOut := true } :: right
      expirations := world.expirations ++ [entry.number] } held := by
  have alone := kept.alone found
  have numbers := kept.numbers
  have faithful := kept.faithful
  rw [found, coe_middle, cons_add, cons_add] at numbers faithful
  constructor
  · rw [coe_middle, cons_add, cons_add, map_cons]
    rw [map_cons] at numbers
    exact numbers
  · intro other inside
    rw [coe_middle, cons_add, cons_add, mem_cons] at inside
    rcases inside with rfl | inside
    · refine ⟨(faithful entry (mem_cons_self _ _)).1, ?_⟩
      simp
    · obtain ⟨removal, timed⟩ := faithful other (mem_cons_of_mem inside)
      refine ⟨removal, timed.trans ?_⟩
      simp [alone other inside]
  · exact kept.gone
  · refine List.forall_mem_append.mpr ⟨kept.expired, List.forall_mem_singleton.mpr ?_⟩
    obtain ⟨removal, _⟩ := faithful entry (mem_cons_self _ _)
    exact (List.getElem?_eq_some_iff.mp removal).1

theorem Kept.take (gone : Gone world entry) :
    Kept { world with retired := left ++ right } (held + {entry}) := by
  have moved : (world.retired : Multiset Retired) + held + world.completions =
      ↑(left ++ right) + (held + {entry}) + world.completions := by
    rw [found, coe_middle, ← singleton_add]
    abel
  constructor
  · rw [← moved]
    exact kept.numbers
  · intro other inside
    rw [← moved] at inside
    exact kept.faithful other inside
  · intro other inside
    rw [mem_add, mem_add, mem_singleton] at inside
    rcases inside with (inside | rfl) | inside
    · exact kept.gone other (mem_add.mpr (.inl inside))
    · exact gone
    · exact kept.gone other (mem_add.mpr (.inr inside))
  · exact kept.expired

omit found

theorem Kept.hasten : Kept world.hasten held := by
  have same := List.foldlRecOn (motive := fun cut => records cut = records world)
    (world.retired.filter fun entry => !entry.fastApplied)
    (fun world entry => world.applyFast entry) rfl fun _ same _ _ => same
  simp only [records, Prod.mk.injEq] at same
  obtain ⟨retired, removals, expirations, completions⟩ := same
  have ends : Ends world world.hasten := by
    refine ⟨fun n past => ?_, hasten_lasts world⟩
    obtain ⟨_, same, _⟩ := hasten_cuts world n
    rw [World.finished, same]
    exact past
  apply kept.relabel (fun entry => { entry with fastApplied := true }) (fun _ => rfl) _ ends
  simp only [records, World.hasten, retired, removals, expirations, completions]

theorem Kept.retire (policy : RemovePolicy) (nodes : List NodeRef) (edges : List ChannelRef) :
    Kept (world.retire plant policy nodes edges) held := by
  have shape : ∃ entry : Retired, summary entry = (world.removals.length, nodes, edges, false) ∧
      records (world.retire plant policy nodes edges) =
        (world.retired ++ [entry], world.removals ++ [(nodes, edges)], world.expirations,
          world.completions) := by
    cases policy with
    | fast | drain => exact ⟨_, rfl, rfl⟩
  have ends : Ends world (world.retire plant policy nodes edges) := by
    refine ⟨fun n past => ?_, retire_lasts plant world policy nodes edges⟩
    obtain ⟨_, _, same, _⟩ := retire_cell plant world policy nodes edges n
    rw [finished, same]
    exact past
  obtain ⟨new, made, same⟩ := shape
  simp only [records, Prod.mk.injEq] at same
  simp only [summary, Prod.mk.injEq] at made
  obtain ⟨retired, removals, expirations, completions⟩ := same
  obtain ⟨number, rfl, rfl, untimed⟩ := made
  have grown : (↑(world.retired ++ [new]) : Multiset Retired) + held +
      (world.completions : Multiset Retired) =
      new ::ₘ ((world.retired : Multiset Retired) + held + world.completions) := by
    rw [coe_middle, List.append_nil, cons_add, cons_add]
  constructor
  · rw [retired, removals, completions, grown, map_cons, kept.numbers, List.length_append,
      List.length_singleton, range_succ, number]
  · intro entry inside
    rw [retired, completions, grown, mem_cons] at inside
    unfold Faithful
    rw [removals, expirations]
    rcases inside with rfl | inside
    · have fresh : world.removals.length ∉ world.expirations := fun listed =>
        Nat.lt_irrefl _ (kept.expired _ listed)
      rw [number, untimed]
      exact ⟨by simp, by simp [fresh]⟩
    · obtain ⟨removal, timed⟩ := kept.faithful entry inside
      refine ⟨?_, timed⟩
      rw [List.getElem?_append_left (List.getElem?_eq_some_iff.mp removal).1]
      exact removal
  · intro entry inside
    rw [completions] at inside
    exact ends.gone (kept.gone entry inside)
  · rw [expirations, removals, List.length_append]
    intro number inside
    exact Nat.lt_of_lt_of_le (kept.expired number inside) (Nat.le_add_right _ _)

omit kept

end Entries

section Settle

variable {held others : Multiset Retired} {left right : List Retired}

def listing (world : World) (entries : List Retired) : World := { world with retired := entries }

theorem upgrade_kept (expired : Bool) (kept : Kept (listing world (left ++ entry :: right)) held) :
    Kept (listing (world.upgrade plant expired entry).1
      (left ++ (world.upgrade plant expired entry).2.1 :: right)) held := by
  unfold upgrade
  split
  · have ends : Ends world (world.applyFast entry) := by
      refine ⟨fun n past => ?_, applyFast_lasts world entry⟩
      obtain ⟨_, same, _⟩ := applyFast_cuts world entry n
      rw [finished, same]
      exact past
    exact (kept.upgrade rfl).congr ⟨ends.nodes, ends.edges⟩ rfl
  · exact kept

theorem touchAll_ends (world : World) (fast : Bool) (edges : List ChannelRef) :
    Ends world (world.touchAll edges (EdgeQueue.markRetired fast)) :=
  ⟨fun _ => id, lasts_touchAll world fun edge _ => markRetired_state fast edge⟩

theorem gone_touchAll (fast : Bool) (past : ∀ n ∈ entry.nodes, world.finished n = true) :
    Gone (world.touchAll entry.edges (EdgeQueue.markRetired fast)) entry := by
  refine ⟨past, fun e inside => ?_⟩
  simp only [touchAll, if_pos inside]
  exact markRetired_state fast _

theorem take_kept (kept : Kept (listing world (left ++ entry :: right)) held) (fast : Bool)
    (past : ∀ n ∈ entry.nodes, world.finished n = true) :
    Kept (listing (world.touchAll entry.edges (EdgeQueue.markRetired fast)) (left ++ right))
      (held + {entry}) := by
  have cut : Kept (listing (world.touchAll entry.edges (EdgeQueue.markRetired fast))
      (left ++ entry :: right)) held := kept.congr (touchAll_ends _ fast entry.edges) rfl
  exact cut.take rfl (gone_touchAll fast past)

theorem settleOne_kept {settled : World.Settled} (expired : Bool)
    (kept : Kept (listing settled.world (settled.stays ++ entry :: right)) (↑settled.done + others)) :
    Kept (listing (settleOne plant settled expired entry).world
        ((settleOne plant settled expired entry).stays ++ right))
      (↑(settleOne plant settled expired entry).done + others) := by
  have upgraded := @upgrade_kept plant _ _ _ _ _ expired kept
  unfold settleOne
  split
  rename_i world now cut same
  rw [same] at upgraded
  have taken (fast : Bool) (past : ∀ n ∈ now.nodes, world.finished n = true) :
      Kept (listing (world.touchAll now.edges (EdgeQueue.markRetired fast))
        (settled.stays ++ right)) (↑(settled.done ++ [now]) + others) := by
    rw [← coe_add, add_right_comm]
    exact take_kept upgraded fast past
  dsimp only
  split
  · split
    · rename_i unfinished
      apply taken true
      intro n inside
      have none_left := List.filter_eq_nil_iff.mp unfinished n inside
      simpa [finished, touchAll] using none_left
    · rw [List.append_assoc]
      exact upgraded.congr (touchAll_ends _ true now.edges) rfl
  · split
    · rename_i complete
      apply taken false
      intro n inside
      rw [drainComplete, Bool.and_eq_true] at complete
      exact List.all_eq_true.mp complete.1 n inside
    · rw [List.append_assoc]
      exact upgraded

theorem settleAll_kept {settled : World.Settled} (expired : List Bool) (entries : List Retired)
    (kept : Kept (listing settled.world (settled.stays ++ entries)) (↑settled.done + others)) :
    Kept (listing (settleAll plant settled expired entries).world
        (settleAll plant settled expired entries).stays)
      (↑(settleAll plant settled expired entries).done + others) := by
  induction entries generalizing settled expired with
  | nil =>
    rw [List.append_nil] at kept
    exact kept
  | cons entry rest ih => exact ih expired.tail (settleOne_kept _ kept)

theorem trades_complete : (books plant).Trades base .complete 0 fun answer => ↑answer.2.1 := by
  intro world others choice after answer _ kept _ ran
  cases ran
  have first : Kept (listing world ([] ++ world.retired)) (↑([] : List Retired) + others) := kept
  exact @settleAll_kept plant others { world } choice.expired world.retired first

end Settle

end GraphEngine.RetirementBooks
