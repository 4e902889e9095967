import GraphEngine.ControlPlane
import GraphEngine.SlotBooks

/-!
The procedures keep the books: a worker holds its slot until it returns it, and
draining is entered and left by one thread at a time.
-/

namespace GraphEngine.SlotRuns

open NodeRuntimes Runs Interleavings Ownership SchedulerStates SchedulerOperations List
open SchedulerCode SchedulerRuns DataPlane ControlPlane SlotBooks

variable {plant : Plant} {rules : Rules World Op Arrival} {base : World} {n : NodeRef}

theorem plain_of_quiet {op : Op} (quiet : isQuiet op = true) : isPlain op = true := by
  cases op <;> first | rfl | cases quiet

@[grind ←]
theorem neutral_plain {op : Op} (plain : isPlain op = true) :
    (books plant rules).Neutral base (atomic op) :=
  neutral_atomic (trades_plain plain 0)

theorem trySchedule_reserves :
    (books plant rules).Keeps (fun reserved _ share => share = if reserved then one n .owner else 0)
      base (trySchedule n) 0 := by
  refine keeps_check (neutral_plain rfl) (fun _ => fun _ _ => rfl) fun state => ?_
  refine keeps_check (neutral_plain rfl) (fun _ => fun _ _ => rfl) fun held => ?_
  refine keeps_atomic trades_takeSlot fun taken => ?_
  cases taken with
  | false => exact fun _ _ => rfl
  | true =>
    refine keeps_atomic (trades_plain rfl _) fun held => ?_
    split
    · refine keeps_atomic (trades_release (.inl rfl) (.inl rfl)) fun _ => ?_
      exact fun _ _ => rfl
    · exact fun _ _ => rfl

@[grind ←]
theorem markReady_neutral : (books plant rules).Neutral base (markReady n) := by
  refine keeps_check (neutral_plain rfl) (fun _ => neutral_pure) fun started => ?_
  refine keeps_check (neutral_plain rfl) (fun _ => neutral_pure) fun fastStop => ?_
  refine keeps_then trySchedule_reserves fun reserved => ?_
  cases reserved with
  | false => exact ends_pure
  | true => exact ends_act trades_submit

@[grind ←]
theorem books_calm : Calm (books plant rules) base where
  quiet _ quiet := trades_plain (plain_of_quiet quiet) 0
  ready _ := markReady_neutral

@[grind ←]
theorem tryEnterDraining_neutral : (books plant rules).Neutral base (tryEnterDraining n) := by
  refine keeps_check (neutral_plain rfl) (fun _ => neutral_pure) fun inFlight => ?_
  refine keeps_check (neutral_plain rfl) (fun _ => neutral_pure) fun pending => ?_
  refine keeps_check (neutral_plain rfl) (fun _ => neutral_pure) fun free => ?_
  refine keeps_atomic trades_test fun swapped => ?_
  cases swapped with
  | false => exact ends_pure
  | true =>
    refine keeps_atomic trades_confirm fun won => ?_
    cases won with
    | true => exact ends_pure
    | false =>
      refine keeps_atomic trades_undo fun _ => ?_
      exact ends_pure

@[grind ←]
theorem openNode_neutral : (books plant rules).Neutral base (openNode n) := by
  refine keeps_atomic trades_open fun swapped => ?_
  cases swapped with
  | false => exact ends_pure
  | true =>
    refine keeps_atomic (trades_record (by decide) _) fun _ => ?_
    refine keeps_atomic (trades_plain rfl _) fun ok => ?_
    refine keeps_atomic (trades_record (by simp) _) fun _ => ?_
    refine keeps_atomic (trades_answer _) fun _ => ?_
    exact ends_pure

@[grind ←]
theorem books_steady : Steady (books plant rules) base where
  calm := books_calm
  steady op known := by
    cases op with
    | record m call =>
      apply trades_record _ 0
      simpa [isSteady] using known
    | setState m new =>
      apply trades_shut _ 0
      revert known
      cases new <;> simp [isSteady]
    | casState m old new =>
      apply trades_swap _ 0
      revert known
      cases old <;> simp [isSteady]
    | _ => exact trades_plain (by first | rfl | cases known) 0
  enters _ := tryEnterDraining_neutral
  opens _ := openNode_neutral

theorem books_invokes : Invokes (books plant rules) base n
    (fun past => one n (if past then .admitted else .owner)) (one n .calling) where
  steady := books_steady
  serving op known := by
    cases op with
    | casState m old new =>
      apply trades_swap _ 0
      revert known
      cases old <;> simp [isServing]
    | _ => exact trades_plain (by first | rfl | cases known) 0
  gate := trades_gate
  frees past := trades_release (.inr (.inr rfl)) (by cases past <;> simp)
  turnsBack := trades_release (.inr (.inl rfl)) (.inr rfl)
  begins := trades_processBegin
  ends := trades_processEnd

variable {world : World}

theorem create_core (candidate : Plan) (n : NodeRef) :
    core ((create candidate world).cells n) = core (world.cells n) := by
  simp only [create]
  split
  · split <;> rfl
  · rfl

theorem completeRetired_neutral : (books plant rules).Neutral base (completeRetired plant) := by
  refine neutral_bind (neutral_plain rfl) fun (toClose, done, progressed) => ?_
  refine neutral_bind (closeAll_steady books_steady toClose) fun closed => ?_
  exact neutral_bind (neutral_each fun _ _ => neutral_plain rfl) fun _ => neutral_pure

theorem body_neutral (name : Procedure) : (books plant rules).Neutral base (body plant name) := by
  cases name with
  | tick => exact tick_steady books_steady
  | settle => exact settle_steady completeRetired_neutral

variable {after : World} {code : Routine Unit}

theorem arrive_shares {others : Stages} {arrival : Arrival} (booked : Booked plant world others)
    (arrived : arrive plant world arrival = some (after, code)) :
    ∃ fresh, Booked plant after (fresh + others) ∧ (books plant rules).Ends after code fresh := by
  have nothing : Booked plant world (0 + others) := by rwa [zero_add]
  cases arrival <;> simp only [arrive] at arrived <;>
    first | cases arrived | split at arrived <;> cases arrived
  case work.isTrue n queued =>
    refine ⟨one n .owner, ?_, invoke_ends books_invokes⟩
    refine nothing.modify (fun held books => ?_) (by simp +contextual)
    cases books
    constructor <;> grind
  case start.isFalse => exact ⟨0, nothing, start_steady books_steady⟩
  case pause.isTrue => exact ⟨0, nothing, neutral_plain rfl⟩
  case resume.isTrue => exact ⟨0, nothing, resume_steady books_steady⟩
  case stop.isTrue fast _ => exact ⟨0, nothing, stop_steady books_steady fast⟩
  case tick => exact ⟨0, nothing, tick_steady books_steady⟩
  case mutate.isTrue candidate policy _ =>
    exact ⟨0, nothing.congr (create_core candidate), mutate_steady books_steady _ _ _⟩
  case submission.isTrue n _ =>
    refine ⟨0, nothing.congr fun m => ?_, submission_steady books_steady n⟩
    refine core_update _ _ _ ?_ m
    rfl
  case h_2.refl n request _ _ _ =>
    refine ⟨0, nothing.congr fun m => ?_, completion_steady books_steady n _⟩
    refine core_update _ _ _ ?_ m
    rfl
  case h_2.refl => exact ⟨0, nothing, redelivery_calm books_calm _ _ _⟩

theorem created_booked (plan : Plan) : Booked plant (created plant plan) 0 := by
  have blank : Booked plant (blank plant) 0 := by
    intro n
    constructor <;> simp [SchedulerRuns.blank]
  refine blank.congr fun n => ?_
  refine Eq.trans ?_ (create_core plan n)
  simp only [created, World.attach, World.modifyAll]
  split <;> rfl

theorem reached_shared {system : SchedulerSystem} (reached : Reached plant rules system) :
    Shared (books plant rules) system := by
  refine reachable_shared (fun _ name => body_neutral name) ?_ ?_ reached
  · intro world others arrival after code holds _ arrived
    exact ⟨trivial, arrive_shares holds arrived⟩
  · rintro first ⟨plan, _, _, _, rfl⟩
    exact ⟨rfl, created_booked plan⟩

def dataCalls (system : SchedulerSystem) (n : NodeRef) : ℕ :=
  (system.world.cells n).calls.count .processBegin

/-- A session of one source, which ends at its first call. -/
def lone : Plant where
  node _ := { isSource := true, maxParallelism := 2, positive := Nat.zero_lt_two }
  edge _ := { producer := 0, fromPort := "out", consumer := 0 }

def lonePlan : Plan where
  nodes := [0]
  edges := []
  newNodes := [0]
  wirings := [(0, { ports := [] })]

/-- At rest no slot has leaked and no call is open: what is reserved is what the queued tasks will
give back. -/
theorem slots_returned {system : SchedulerSystem} (reached : Reached plant rules system)
    (quiet : system.Quiescent) (n : NodeRef) :
    (system.world.cells n).reserved = (system.world.cells n).tasks ∧
      (system.world.cells n).slots + (system.world.cells n).tasks = (plant.node n).maxParallelism ∧
      (system.world.cells n).calls.count .processEnd = dataCalls system n := by
  obtain ⟨slots, reserved, calls⟩ := shared_quiescent (reached_shared reached) quiet n
  exact ⟨reserved, slots, calls.symm⟩

/-- It is started, its task runs and drains it, and both threads end. -/
def loneRun : List (Pick Choice Arrival) :=
  .arrive .start :: List.replicate 17 (.turn 0 {}) ++ .arrive (.work 0) ::
    List.replicate 53 (.turn 1 { script := { exhausted := true } })

theorem lone_rests : ∃ system, Reached lone {} system ∧ system.Quiescent ∧
    dataCalls system 0 = 1 ∧ (system.world.cells 0).reserved = 0 ∧
      (system.world.cells 0).calls.count .processEnd = 1 := by
  have seen : ((scheduler lone).play {} ⟨created lone lonePlan, []⟩ loneRun).map (fun system =>
      (decide system.Quiescent, dataCalls system 0, (system.world.cells 0).tasks)) =
        some (true, 1, 0) := by
    decide +kernel
  obtain ⟨system, played, look⟩ := Option.map_eq_some_iff.mp seen
  simp only [Prod.mk.injEq, decide_eq_true_eq] at look
  obtain ⟨quiet, begun, tasks⟩ := look
  have reached : Reached lone {} system :=
    Machine.play_reachable (.initial ⟨lonePlan, rfl, rfl, by decide, rfl⟩) _ played
  obtain ⟨reserved, -, ended⟩ := slots_returned reached quiet 0
  exact ⟨system, reached, quiet, begun, reserved.trans tasks, ended.trans begun⟩

end GraphEngine.SlotRuns
