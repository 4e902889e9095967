import GraphEngine.Ownership
import GraphEngine.SchedulerFrames
import Mathlib.Algebra.Group.Pi.Lemmas

/-!
The books of a node's slots and of its way into draining. Threads hold stages:
a reserved slot, the same past the first gate of an invocation, the same inside a
data call, and the two ends of an attempt to drain between the swap of the state
and the decision.
-/

namespace GraphEngine.SlotBooks

open NodeRuntimes Interleavings Ownership SchedulerStates SchedulerOperations
open SchedulerRuns SchedulerFrames

inductive Stage where
  | owner | admitted | calling | tested | undoing | opening
  deriving DecidableEq

abbrev Stages := NodeRef → Stage → ℕ

def one (n : NodeRef) (stage : Stage) : Stages := Pi.single n (Pi.single stage 1)

@[simp] theorem one_here (n : NodeRef) (stage other : Stage) :
    one n stage n other = if other = stage then 1 else 0 := by
  simp [one, Pi.single_apply]

@[simp] theorem one_away {n m : NodeRef} (other : m ≠ n) (stage : Stage) : one n stage m = 0 := by
  simp [one, other]

/-- A node that left service for good, or tries to. -/
@[reducible]
def isEnding : NodeState → Bool
  | .draining | .closing | .closed | .failed => true
  | _ => false

/-- A node in the middle of its opening, or shut before that was over. -/
@[reducible]
def isUnopened : NodeState → Bool
  | .opening | .closing | .closed | .failed => true
  | _ => false

/-- The books of one node, with the numbers of threads in each stage. -/
structure Books (max : ℕ) (cell : Cell) (held : Stage → ℕ) : Prop where
  slots : cell.slots + cell.tasks + held .owner + held .admitted + held .calling = max
  reserved : cell.reserved = cell.tasks + held .owner + held .admitted + held .calling
  calls : cell.calls.count .processBegin = cell.calls.count .processEnd + held .calling
  once : held .tested + held .undoing + cell.wins ≤ 1
  ending : 0 < held .tested + held .undoing + cell.wins → isEnding cell.state = true
  sealed : 0 < cell.wins → held .admitted + held .calling = 0
  alone : held .opening ≤ 1
  unopened : 0 < held .opening →
    isUnopened cell.state = true ∧ held .tested + held .undoing + cell.wins = 0

variable (plant : Plant)

def Booked (world : World) (share : Stages) : Prop :=
  ∀ n, Books (plant.node n).maxParallelism (world.cells n) (share n)

def core (cell : Cell) : (ℕ × ℕ × ℕ × ℕ) × NodeState × List OperatorCall :=
  ((cell.slots, cell.tasks, cell.reserved, cell.wins), cell.state, cell.calls)

theorem Books.congr {max : ℕ} {cell other : Cell} {held : Stage → ℕ} (books : Books max cell held)
    (same : core other = core cell) : Books max other held := by
  simp only [core, Prod.mk.injEq] at same
  obtain ⟨⟨slots, tasks, reserved, wins⟩, state, calls⟩ := same
  constructor
  · rw [slots, tasks]
    exact books.slots
  · rw [reserved, tasks]
    exact books.reserved
  · rw [calls]
    exact books.calls
  · rw [wins]
    exact books.once
  · rw [wins, state]
    exact books.ending
  · rw [wins]
    exact books.sealed
  · exact books.alone
  · rw [wins, state]
    exact books.unopened

variable {plant}
variable {world : World}

theorem Booked.congr {after : World} {share : Stages} (booked : Booked plant world share)
    (same : ∀ n, core (after.cells n) = core (world.cells n)) : Booked plant after share :=
  fun n => (booked n).congr (same n)

theorem Booked.modify {n : NodeRef} {change : Cell → Cell} {mine later others : Stages}
    (booked : Booked plant world (mine + others))
    (here : ∀ held, Books (plant.node n).maxParallelism (world.cells n) (mine n + held) →
      Books (plant.node n).maxParallelism (change (world.cells n)) (later n + held))
    (away : ∀ m, m ≠ n → later m = mine m) :
    Booked plant (world.modify n change) (later + others) := by
  intro m
  by_cases other : m = n
  · subst other
    rw [World.modify_self]
    exact here _ (booked m)
  · rw [World.modify_other other, Pi.add_apply, away m other]
    exact booked m

theorem Booked.trade (n : NodeRef) {mine later others : Stages}
    (booked : Booked plant world (mine + others))
    (here : ∀ held, Books (plant.node n).maxParallelism (world.cells n) (mine n + held) →
      Books (plant.node n).maxParallelism (world.cells n) (later n + held))
    (away : ∀ m, m ≠ n → later m = mine m) : Booked plant world (later + others) := by
  rw [← World.modify_id n world]
  exact booked.modify here away

@[reducible]
def isPlain : Op → Bool
  | .setState .. | .casState .. | .takeSlot _ | .giveBack _ | .turnBack _ | .freeSlot _
  | .confirm _ | .submit _ | .record .. => false
  | _ => true

theorem core_update (cells : NodeRef → Cell) (m : NodeRef) (cell : Cell)
    (same : core cell = core (cells m)) (n : NodeRef) :
    core (Function.update cells m cell n) = core (cells n) := by
  by_cases other : n = m
  · subst other
    rw [Function.update_self, same]
  · rw [Function.update_of_ne other]

theorem core_endPort (port : Nat) (cell : Cell) : core (endPort port cell) = core cell := by
  unfold endPort
  split <;> rfl

theorem core_cuts {before after : Cell} (cuts : Cuts before after) : core after = core before := by
  obtain ⟨_, rfl, _⟩ := cuts
  rfl

theorem plain_core {after : World} {op : Op} {choice : Choice} {answer : op.Answer}
    (plain : isPlain op = true) (ran : perform plant world op choice = some (after, answer))
    (n : NodeRef) : core (after.cells n) = core (world.cells n) := by
  cases op <;> simp only [Bool.false_eq_true] at plain <;> simp only [perform] at ran
  case swap next =>
    split at ran
    · cases ran
      rfl
    split at ran
    · cases ran
    cases ran
    obtain ⟨cell, ⟨_, _, _, _, rfl⟩, same⟩ := swap_cell world next n
    rw [same]
    rfl
  case retire policy nodes edges =>
    cases ran
    obtain ⟨_, _, same, _⟩ := retire_cell plant world policy nodes edges n
    rw [same]
    rfl
  case announce fast =>
    cases ran
    exact core_cuts (announce_cuts world fast n)
  case hasten =>
    cases ran
    exact core_cuts (hasten_cuts world n)
  case complete =>
    cases ran
    exact core_cuts (settle_cuts plant world _ n)
  case inject =>
    cases ran
    exact injectAll_keeps plant world (fun world => core (world.cells n)) (fun _ _ _ => rfl) _
  case writeBack m pushed still =>
    obtain ⟨left, same⟩ := writeBack_cells world m pushed still
    have written : (writeBack world m pushed still).1 = after :=
      congrArg Prod.fst (Option.some.inj ran)
    rw [← written, same]
    refine core_update _ _ _ ?_ n
    rfl
  case takeHead m port =>
    simp only [takeHead] at ran
    split at ran
    · cases ran
      rfl
    · cases ran
      rfl
  case endPort m port =>
    cases ran
    exact core_update _ _ _ (core_endPort port _) n
  -- The rest reads, or changes other fields of one cell.
  all_goals first
    | cases ran; rfl
    | cases ran; refine core_update _ _ _ ?_ n; rfl
    | split at ran <;> cases ran <;> first
        | rfl
        | refine core_update _ _ _ ?_ n; rfl

variable {new : NodeState}

variable (plant) (rules : Rules World Op Arrival)

def books : Discipline (scheduler plant) rules Stages where
  Holds := Booked plant
  Grows _ _ := True
  grows_refl _ := trivial
  grows_trans _ _ := trivial
  grows _ _ := trivial

variable {plant rules} {base : World} {n : NodeRef}

@[grind =] theorem zero_held (held : Stage → ℕ) (stage : Stage) :
    ((0 : Stages) n + held) stage = held stage := by
  simp

@[grind =] theorem one_held (stage other : Stage) (held : Stage → ℕ) :
    (one n stage n + held) other = (if other = stage then 1 else 0) + held other := by
  simp

theorem trades_plain {op : Op} (plain : isPlain op = true) (mine : Stages) :
    (books plant rules).Trades base op mine fun _ => mine :=
  fun _ _ _ _ _ _ booked _ ran => booked.congr (plain_core plain ran)

theorem trades_takeSlot : (books plant rules).Trades base (.takeSlot n) 0 fun taken =>
      if taken then one n .owner else 0 := by
  intro world others choice after answer _ booked _ ran
  simp only [scheduler, perform] at ran
  split at ran <;> cases ran
  · refine booked.modify (fun held books => ?_) (by simp +contextual)
    cases books
    constructor <;> grind
  · exact booked

theorem trades_release {op : Op} {stage : Stage}
    (releases : op = .giveBack n ∨ op = .turnBack n ∨ op = .freeSlot n)
    (reserves : stage = .owner ∨ stage = .admitted) :
    (books plant rules).Trades base op (one n stage) fun _ => 0 := by
  intro world others choice after answer _ booked _ ran
  have released : after = world.modify n releaseSlot := by
    rcases releases with rfl | rfl | rfl <;> cases ran <;> rfl
  subst released
  refine booked.modify (fun held books => ?_) (by simp +contextual)
  cases books
  rcases reserves with rfl | rfl <;> constructor <;> grind [releaseSlot]

theorem trades_submit : (books plant rules).Trades base (.submit n) (one n .owner) fun _ => 0 := by
  intro world others choice after answer _ booked _ ran
  cases ran
  refine booked.modify (fun held books => ?_) (by simp +contextual)
  cases books
  constructor <;> grind

/-- The first gate of an invocation. A runnable node lets it in: nobody has drained it. -/
theorem trades_gate : (books plant rules).Trades base (.state n) (one n .owner) fun state =>
      one n (if isRunnable state then .admitted else .owner) := by
  intro world others choice after answer _ booked _ ran
  cases ran
  refine booked.trade n (fun held books => ?_) (by simp +contextual)
  dsimp only
  split
  · have serving : isEnding (world.cells n).state = false := by
      cases state : (world.cells n).state <;> simp_all [isRunnable]
    cases books
    constructor <;> grind
  · exact books

theorem trades_processBegin :
    (books plant rules).Trades base (.record n .processBegin) (one n .admitted) fun _ =>
      one n .calling := by
  intro world others choice after answer _ booked _ ran
  cases ran
  refine booked.modify (fun held books => ?_) (by simp +contextual)
  cases books
  constructor <;> grind

theorem trades_processEnd :
    (books plant rules).Trades base (.record n .processEnd) (one n .calling) fun _ =>
      one n .admitted := by
  intro world others choice after answer _ booked _ ran
  cases ran
  refine booked.modify (fun held books => ?_) (by simp +contextual)
  cases books
  constructor <;> grind

theorem trades_record {call : OperatorCall} (other : call ≠ .processBegin ∧ call ≠ .processEnd)
    (mine : Stages) : (books plant rules).Trades base (.record n call) mine fun _ => mine := by
  intro world others choice after answer _ booked _ ran
  cases ran
  refine booked.modify (fun held books => ?_) (by simp +contextual)
  cases books
  constructor <;> grind

theorem trades_test :
    (books plant rules).Trades base (.casState n .ready .draining) 0 fun swapped =>
      if swapped then one n .tested else 0 := by
  intro world others choice after answer _ booked _ ran
  simp only [scheduler, perform] at ran
  split at ran <;> cases ran
  · refine booked.modify (fun held books => ?_) (by simp +contextual)
    cases books
    constructor <;> grind
  · exact booked

/-- The second half: when all slots are free, no invocation is past its gate. -/
theorem trades_confirm : (books plant rules).Trades base (.confirm n) (one n .tested) fun won =>
      if won then 0 else one n .undoing := by
  intro world others choice after answer _ booked _ ran
  simp only [scheduler, perform] at ran
  split at ran <;> cases ran
  · rename_i free
    have all : (world.cells n).slots = (plant.node n).maxParallelism := by simpa [allFree] using free
    refine booked.modify (fun held books => ?_) (by simp +contextual)
    cases books
    constructor <;> grind
  · refine booked.trade n (fun held books => ?_) (by simp +contextual)
    cases books
    constructor <;> grind

theorem trades_undo :
    (books plant rules).Trades base (.casState n .draining .ready) (one n .undoing) fun _ => 0 := by
  intro world others choice after answer _ booked _ ran
  simp only [scheduler, perform] at ran
  split at ran <;> cases ran
  · refine booked.modify (fun held books => ?_) (by simp +contextual)
    cases books
    constructor <;> grind
  refine booked.trade n (fun held books => ?_) (by simp +contextual)
  cases books
  constructor <;> grind

theorem trades_open :
    (books plant rules).Trades base (.casState n .created .opening) 0 fun swapped =>
      if swapped then one n .opening else 0 := by
  intro world others choice after answer _ booked _ ran
  simp only [scheduler, perform] at ran
  split at ran <;> cases ran
  · refine booked.modify (fun held books => ?_) (by simp +contextual)
    cases books
    constructor <;> grind
  · exact booked

theorem trades_answer (new : NodeState) :
    (books plant rules).Trades base (.setState n new) (one n .opening) fun _ => 0 := by
  intro world others choice after answer _ booked _ ran
  cases ran
  refine booked.modify (fun held books => ?_) (by simp +contextual)
  cases books
  constructor <;> grind [store]

theorem trades_swap {old : NodeState} (serving : isEnding old = false ∧ isUnopened old = false)
    (mine : Stages) : (books plant rules).Trades base (.casState n old new) mine fun _ => mine := by
  intro world others choice after answer _ booked _ ran
  simp only [scheduler, perform] at ran
  split at ran <;> cases ran
  · refine booked.modify (fun held books => ?_) (by simp +contextual)
    cases books
    constructor <;> grind
  · exact booked

theorem trades_shut (shut : isEnding new = true ∧ isUnopened new = true) (mine : Stages) :
    (books plant rules).Trades base (.setState n new) mine fun _ => mine := by
  intro world others choice after answer _ booked _ ran
  cases ran
  refine booked.modify (fun held books => ?_) (by simp +contextual)
  cases books
  constructor <;> grind [store]

end GraphEngine.SlotBooks
