import GraphEngine.ControlPlane
import GraphEngine.RetirementBooks

/-!
The callbacks of published mutations. Only `CompleteRetired` takes entries out of the
scheduler's list, and it runs the callback of each entry it has taken; the other
procedures leave the books alone.
-/

namespace GraphEngine.RetirementRuns

open NodeRuntimes Interleavings Ownership SchedulerStates List Multiset
open SchedulerOperations SchedulerCode SchedulerRuns DataPlane ControlPlane RetirementBooks

variable {plant : Plant} {base : World} {n : NodeRef}

@[grind ←]
theorem neutral_modest {op : Op} (modest : isModest op = true) :
    (books plant).Neutral base (atomic op) :=
  neutral_atomic (trades_modest modest)

@[grind ←]
theorem neutral_swap {old new : NodeState} (unfinished : old ≠ .closed ∧ old ≠ .failed) :
    (books plant).Neutral base (atomic (.casState n old new)) :=
  neutral_modest (by simp [isModest, isOver, unfinished])

theorem trades_steady {op : Op} (known : isSteady op = true) :
    (books plant).Trades base op 0 fun _ => 0 := by
  cases op with
  | retire policy nodes edges =>
    intro world others choice after answer _ kept _ ran
    cases ran
    exact Kept.retire kept policy nodes edges
  | hasten =>
    intro world others choice after answer _ kept _ ran
    cases ran
    exact Kept.hasten kept
  | casState m old new =>
    apply trades_modest
    revert known
    cases old <;> simp [isOver]
  | _ => exact trades_modest (by first | rfl | cases known)

theorem trySchedule_neutral : (books plant).Neutral base (trySchedule n) := by
  grind [trySchedule]

theorem markReady_neutral : (books plant).Neutral base (markReady n) := by
  refine keeps_check (neutral_modest rfl) (fun _ => neutral_pure) fun started => ?_
  refine keeps_check (neutral_modest rfl) (fun _ => neutral_pure) fun fastStop => ?_
  exact keeps_check trySchedule_neutral (fun _ => neutral_modest rfl) fun _ => neutral_pure

theorem books_steady : Steady (books plant) base where
  calm :=
    { quiet := fun op quiet => trades_modest (by cases op <;> first | rfl | cases quiet)
      ready := fun _ => markReady_neutral }
  steady _ known := trades_steady known
  enters n := by grind [tryEnterDraining]
  opens n := by grind [openNode]

theorem books_invokes : Invokes (books plant) base n (fun _ => 0) 0 where
  steady := books_steady
  serving op known := by
    cases op with
    | casState m old new =>
      apply trades_modest
      revert known
      cases old <;> simp [isServing, isModest, isOver]
    | _ => exact trades_modest (by first | rfl | cases known)
  gate := trades_modest rfl
  frees _ := trades_modest rfl
  turnsBack := trades_modest rfl
  begins := trades_modest rfl
  ends := trades_modest rfl

theorem completeRetired_neutral : (books plant).Neutral base (completeRetired plant) := by
  apply keeps_atomic trades_complete
  intro answer
  have callbacks (closed : Bool) : (books plant).Ends base (do
      Code.each (fun entry => atomic (.onComplete entry)) answer.2.1
      pure (answer.2.2 || closed)) (↑answer.2.1) := by
    have body (entry : Retired) (rest : List Retired) : (books plant).Keeps
        (fun _ _ later => later = (↑rest : Multiset Retired)) base (atomic (.onComplete entry))
        (↑(entry :: rest) : Multiset Retired) := by
      have trades := trades_frame (@trades_onComplete plant base entry) (↑rest)
      exact keeps_act trades
    apply keeps_then (keeps_each (fun entries : List Retired => (↑entries : Multiset Retired))
      answer.2.1 body)
    exact fun _ => neutral_pure
  exact keeps_neutral (closeAll_steady books_steady answer.1) callbacks

theorem body_neutral (name : Procedure) : (books plant).Neutral base (body plant name) := by
  cases name with
  | tick => exact tick_steady books_steady
  | settle => exact settle_steady completeRetired_neutral

theorem arrive_kept {world after : World} {others : Multiset Retired} {arrival : Arrival}
    {code : Routine Unit} (kept : Kept world others)
    (arrived : arrive plant world arrival = some (after, code)) :
    Kept after others ∧ (books plant).Neutral after code := by
  have modified (m : NodeRef) (change : Cell → Cell)
      (same : (change (world.cells m)).state = (world.cells m).state) :
      Kept (world.modify m change) others := by
    refine kept.congr ⟨fun n past => ?_, fun _ => id⟩ rfl
    refine finished_update ?_ past
    rintro rfl
    rw [same]
    exact past
  cases arrival <;> simp only [arrive] at arrived <;>
    first | cases arrived | split at arrived <;> cases arrived
  case work.isTrue n _ => exact ⟨modified n _ rfl, invoke_ends books_invokes⟩
  case start.isFalse =>
    exact ⟨kept.congr ⟨fun _ => id, fun _ => id⟩ rfl, start_steady books_steady⟩
  case pause.isTrue => exact ⟨kept, neutral_modest rfl⟩
  case resume.isTrue => exact ⟨kept, resume_steady books_steady⟩
  case stop.isTrue fast _ => exact ⟨kept, stop_steady books_steady fast⟩
  case tick => exact ⟨kept, tick_steady books_steady⟩
  case mutate.isTrue =>
    refine ⟨kept.congr ⟨fun n past => ?_, fun _ => id⟩ rfl, mutate_steady books_steady _ _ _⟩
    simp only [World.finished, create] at past ⊢
    split
    · split <;> exact past
    · exact past
  case submission.isTrue n _ => exact ⟨modified n _ rfl, submission_steady books_steady n⟩
  case h_2.refl n _ _ _ _ => exact ⟨modified n _ rfl, completion_steady books_steady n _⟩
  case h_2.refl =>
    exact ⟨kept.congr ⟨fun _ => id, fun _ => id⟩ rfl, redelivery_calm books_steady.calm _ _ _⟩

theorem reached_shared {system : SchedulerSystem} (reached : Reached plant lasting system) :
    Shared (books plant) system := by
  refine reachable_shared (fun _ name => body_neutral name) ?_ ?_ reached
  · intro world others arrival after code kept _ arrived
    obtain ⟨still, neutral⟩ := arrive_kept kept arrived
    exact ⟨trivial, 0, by rwa [zero_add], neutral⟩
  · rintro first ⟨plan, _, _, _, rfl⟩
    refine ⟨rfl, ?_⟩
    constructor <;> simp [created, create, blank, World.attach, World.modifyAll]

/-- Every publish has one entry: it waits, a thread holds it, or its callback has run,
once. At the callback and ever after, what the publish removed is gone, and the callback
is told of a timeout if and only if a deadline has cut the drain short. When nothing is
in progress, no thread holds an entry. -/
theorem callbacks_run_once (plant : Plant) {system : SchedulerSystem}
    (reached : Reached plant lasting system) :
    (∃ held : List Retired, (system.Quiescent → held = []) ∧
      ((system.world.retired ++ held ++ system.world.completions).map Retired.number).Perm
        (range system.world.removals.length)) ∧ ∀ entry ∈ system.world.completions,
      Gone system.world entry ∧ Faithful system.world entry := by
  have shared := reached_shared reached
  have listed (held : List Retired) (kept : Kept system.world ↑held) :
      ((system.world.retired ++ held ++ system.world.completions).map Retired.number).Perm
        (range system.world.removals.length) := by
    have numbers := kept.numbers
    exact coe_eq_coe.mp numbers
  obtain ⟨owned, _, _, kept⟩ := id shared
  refine ⟨?_, fun entry inside => ⟨?_, ?_⟩⟩
  · by_cases quiet : system.Quiescent
    · exact ⟨[], fun _ => rfl, listed [] (shared_quiescent shared quiet)⟩
    · refine ⟨(owned.map Prod.snd).sum.toList, fun now => absurd now quiet, listed _ ?_⟩
      rw [coe_toList]
      exact kept
  · exact kept.gone entry (mem_add.mpr (.inr inside))
  · exact kept.faithful entry (mem_add.mpr (.inr inside))

/-- A source with an asynchronous node behind it that has no runtime, and a source by itself. -/
def pair : Plant where
  node n := if n = 1 then { isAsync := true } else { isSource := true, outputs := ["out"] }
  edge _ := { producer := 0, fromPort := "out", consumer := 1 }
  asyncRuntime := false

def pairPlan : Plan where
  nodes := [0, 1, 2]
  edges := [0]
  newNodes := [0, 1, 2]
  newEdges := [0]
  wirings := [(0, { ports := [] }),
    (1, { ports := [{ port := "in", edge := some 0, required := true }] }), (2, { ports := [] })]

/-- What a mutation leaves. -/
def restPlan : Plan where
  nodes := [2]
  edges := []

/-- The pair is removed at once; its source, which has a task in the queue, is closed by
its worker. -/
def removalRun : List (Pick Choice Arrival) :=
  flatten [
    [.arrive .start], replicate 36 (.turn 0 {}),
    [.arrive (.mutate restPlan .fast)], replicate 87 (.turn 1 {}),
    [.arrive (.work 0)], replicate 39 (.turn 2 {})]

theorem removed_pair_called_back : ∃ system, Reached pair lasting system ∧
    system.world.completions.length = 1 ∧ ((∃ held : List Retired, (system.Quiescent → held = []) ∧
      ((system.world.retired ++ held ++ system.world.completions).map Retired.number).Perm
        (range system.world.removals.length)) ∧ ∀ entry ∈ system.world.completions,
      Gone system.world entry ∧ Faithful system.world entry) := by
  have started : Created pair ⟨created pair pairPlan, []⟩ := ⟨pairPlan, rfl, rfl, by decide, rfl⟩
  have seen : ((scheduler pair).play lasting ⟨created pair pairPlan, []⟩ removalRun).map
      (fun system => system.world.completions.length) = some 1 := by
    decide +kernel
  obtain ⟨system, played, one⟩ := Option.map_eq_some_iff.mp seen
  have reached : Reached pair lasting system := Machine.play_reachable (.initial started) _ played
  exact ⟨system, reached, one, callbacks_run_once pair reached⟩

/-- The source emits a packet. One worker takes it and gives the slot back; then the source ends,
and another worker takes the marker, drains the node and is about to close it when the first
fails it. A mutation removes the pair and finds it over, the second worker closes the node after
all, and the callback runs. -/
def pairRun : List (Pick Choice Arrival) :=
  let emits : Choice :=
    { script := { emissions := [{ port := "out", packet := { seq := 1 } }], exhausted := true } }
  flatten [
    [.arrive .start], replicate 36 (.turn 0 {}),
    [.arrive (.work 0)], replicate 26 (.turn 1 emits),
    [.arrive (.work 1)], replicate 17 (.turn 2 { grabs := [.head 0], batch := true }),
    replicate 39 (.turn 1 {}),
    [.arrive (.work 1)], replicate 38 (.turn 3 { grabs := [.head 0] }), [.turn 2 {}],
    [.arrive (.mutate restPlan .drain)], replicate 25 (.turn 4 {}), [.turn 3 {}, .turn 4 {}]]

/-- The callback runs while a removed node is closing again. -/
theorem callback_while_closing : ∃ system, Reached pair {} system ∧
    ∃ entry ∈ system.world.completions, ¬ Gone system.world entry := by
  have started : Created pair ⟨created pair pairPlan, []⟩ := ⟨pairPlan, rfl, rfl, by decide, rfl⟩
  have seen : ((scheduler pair).play {} ⟨created pair pairPlan, []⟩ pairRun).map (fun system =>
      decide (∃ entry ∈ system.world.completions, ¬ Gone system.world entry)) = some true := by
    decide +kernel
  obtain ⟨system, played, shown⟩ := Option.map_eq_some_iff.mp seen
  exact ⟨system, Machine.play_reachable (.initial started) _ played, of_decide_eq_true shown⟩

end GraphEngine.RetirementRuns
