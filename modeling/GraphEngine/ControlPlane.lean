import GraphEngine.DataPlane

/-!
The procedures that close nodes, retire topologies and steer the session. Under every
discipline that is calm, indifferent to the operations they are made of, and neutral
towards the entry into draining and the opening of a node, they need no share and
leave none.
-/

namespace GraphEngine.ControlPlane

open GraphSpecs NodeRuntimes Interleavings Ownership SchedulerStates
open SchedulerOperations SchedulerCode SchedulerRuns DataPlane

/-- Operations on the lifecycle of nodes and topologies, on the session and on pending
requests. -/
@[reducible]
def isSteady : Op → Bool
  | .isBusy _ | .awaitIdle _ | .awaitSlots _ | .hold _ | .release _ | .clearTopology _ => true
  | .register .. | .finishEos _ | .endPort .. | .endAsync _ | .endSubmission _ => true
  | .detach _ | .noneLive | .claimClosed | .signal | .swap _ | .retire .. | .hasten => true
  | .announce _ | .start | .opened | .openFailed | .endMutation .. => true
  | .record _ call => decide (call ≠ .processBegin) && decide (call ≠ .processEnd)
  | .setState _ new => new = .closing || new = .closed || new = .failed
  | .casState _ old new =>
    old = .asyncPending && new = .ready || old = .ready && new = .asyncPending
  | _ => false

variable {plant : Plant} {rules : Rules World Op Arrival} {Share : Type}
variable [AddCommMonoid Share] {discipline : Discipline (scheduler plant) rules Share}
variable {base : World}

structure Steady (discipline : Discipline (scheduler plant) rules Share) (base : World) : Prop where
  calm : Calm discipline base
  steady : ∀ op, isSteady op = true → discipline.Trades base op 0 fun _ => 0
  enters : ∀ n, discipline.Neutral base (tryEnterDraining n)
  opens : ∀ n, discipline.Neutral base (openNode n)

theorem Steady.act {op : Op} (steady : Steady discipline base)
    (known : isSteady op = true) : discipline.Neutral base (atomic op) :=
  neutral_atomic (steady.steady op known)

theorem Steady.next {op : Op} {Value : Type} {rest : op.Answer → Routine Value}
    (steady : Steady discipline base) (known : (isQuiet op || isSteady op) = true)
    (later : ∀ answer, discipline.Neutral base (rest answer)) :
    discipline.Neutral base (atomic op >>= rest) := by
  rcases (Bool.or_eq_true _ _).mp known with quiet | moves
  · exact neutral_bind (steady.calm.act quiet) later
  · exact neutral_bind (steady.act moves) later

attribute [grind ←] Steady.act Steady.enters Steady.opens
attribute [grind →] Steady.calm

section Procedures

variable (steady : Steady discipline base) (n : NodeRef)

include steady

@[grind ←]
theorem close_steady : discipline.Neutral base (close n) := by
  refine steady.next rfl fun state => ?_
  split
  · exact neutral_pure
  · exact steady.act rfl
  refine steady.next rfl fun _ => ?_
  refine steady.next rfl fun _ => ?_
  exact steady.next rfl fun _ => steady.act rfl

@[grind ←]
theorem fail_steady : discipline.Neutral base (fail n) := steady.act rfl

@[grind ←]
theorem endAsync_steady : discipline.Neutral base (endAsync n) :=
  steady.next rfl fun _ => steady.next rfl fun _ => neutral_pure

@[grind ←]
theorem checkAllClosed_steady : discipline.Neutral base checkAllClosed := by
  refine keeps_check (steady.act rfl) (fun none_live => ?_) fun _ => neutral_pure
  exact keeps_check (steady.act rfl) (fun _ => steady.act rfl) fun _ => neutral_pure

@[grind ←]
theorem onNodeDone_steady : discipline.Neutral base (onNodeDone n) := by
  refine keeps_check (steady.act rfl) (fun detached => ?_) fun _ => neutral_pure
  refine steady.next rfl fun _ => steady.next rfl fun _ => ?_
  exact neutral_bind (checkAllClosed_steady steady) fun _ => tickIfRetiring_calm steady.calm

@[grind ←]
theorem closeNode_steady : discipline.Neutral base (closeNode n) := by
  refine steady.next rfl fun state => ?_
  have closes (_ : PUnit) : discipline.Neutral base (close n) := close_steady steady n
  exact keeps_ite (fun _ => steady.next rfl closes) fun _ => closes ()

@[grind ←]
theorem retryEos_steady : discipline.Neutral base (retryEos plant n) := by
  refine steady.next rfl fun _ => ?_
  refine steady.next rfl fun pending => ?_
  cases pending with
  | none => exact steady.next rfl fun _ => neutral_pure
  | some ports =>
    refine steady.next rfl fun plan => ?_
    refine neutral_bind (sendEos_calm steady.calm n plan ports) fun wake => ?_
    refine steady.next rfl fun done => ?_
    refine steady.next rfl fun _ => ?_
    exact neutral_bind (neutral_each fun m _ => steady.calm.ready m) fun _ => neutral_pure

@[grind ←]
theorem retryBlocked_steady : discipline.Neutral base (retryBlocked plant n) := by
  refine keeps_check (clearsParked_calm steady.calm n) (fun clear => ?_) fun _ => neutral_pure
  refine keeps_check (retryEos_steady steady n) (fun done => ?_) fun _ => neutral_pure
  refine steady.next rfl fun state => ?_
  have ends (_ : PUnit) : discipline.Neutral base (onNodeDone n) := onNodeDone_steady steady n
  exact keeps_ite (fun _ => neutral_bind (closeNode_steady steady n) ends) fun _ => ends ()

@[grind ←]
theorem tryCloseCancelled_steady : discipline.Neutral base (tryCloseCancelled plant n) := by
  refine keeps_check (steady.act rfl) (fun _ => neutral_pure) fun busy => ?_
  refine keeps_check (steady.calm.act rfl) (fun state => ?_) fun state => ?_
  · exact neutral_bind (onNodeDone_steady steady n) fun _ => neutral_pure
  refine keeps_ite (fun _ => neutral_pure) fun _ => ?_
  refine keeps_check (steady.calm.act rfl) (fun _ => neutral_pure) fun pending => ?_
  have closing : ∀ closes : Bool, discipline.Neutral base
      (if closes then do closeNode n; onNodeDone n; pure true else pure false) := by
    intro closes
    refine keeps_ite (fun _ => ?_) fun _ => neutral_pure
    refine neutral_bind (closeNode_steady steady n) fun _ => ?_
    exact neutral_bind (onNodeDone_steady steady n) fun _ => neutral_pure
  have leaving : ∀ left : Bool, discipline.Neutral base
      (if !left then pure false
      else if state = .draining then do
        retryBlocked plant n
        let now ← atomic (.state n)
        pure (isOver now)
      else do
        let won ← tryEnterDraining n
        if won then (if true then do closeNode n; onNodeDone n; pure true else pure false)
        else do
          let now ← atomic (.state n)
          if decide (now = .created) then do closeNode n; onNodeDone n; pure true else pure false) := by
    intro left
    refine keeps_ite (fun _ => neutral_pure) fun _ => ?_
    refine keeps_ite (fun _ => ?_) fun _ => ?_
    · refine neutral_bind (retryBlocked_steady steady n) fun _ => ?_
      exact steady.next rfl fun _ => neutral_pure
    refine keeps_check (steady.enters n) (fun _ => closing true) fun won => ?_
    exact steady.next rfl fun now => closing _
  dsimp only
  split
  · exact steady.next rfl leaving
  · exact leaving true

@[grind ←]
theorem flush_steady (plan : Plan) : discipline.Neutral base (flush plant n plan) := by
  refine keeps_check (steady.calm.act rfl) (fun _ => neutral_pure) fun cancelled => ?_
  refine steady.next rfl fun _ => steady.next rfl fun script => ?_
  refine neutral_bind (neutral_each fun _ _ => emit_calm steady.calm n plan _) fun _ => ?_
  refine keeps_check (steady.act rfl) (fun _ => ?_) fun _ => neutral_pure
  exact keeps_check (steady.calm.act rfl) (fun _ => neutral_pure) fun _ => fail_steady steady n

@[grind ←]
theorem finishNode_steady : discipline.Neutral base (finishNode plant n) := by
  refine steady.next rfl fun plan => ?_
  have rest (_ : PUnit) : discipline.Neutral base (do
      atomic (.register n (plan.elim [] fun plan => plan.outputPorts plant n))
      retryBlocked plant n) :=
    steady.next rfl fun _ => retryBlocked_steady steady n
  cases plan with
  | none => exact rest ()
  | some plan => exact neutral_bind (flush_steady steady n plan) rest

@[grind ←]
theorem drainAndFinish_steady : discipline.Neutral base (drainAndFinish plant n) := by
  exact keeps_check (steady.enters n) (fun _ => finishNode_steady steady n) fun _ => neutral_pure

@[grind ←]
theorem grab_steady (grabbed : Grab) : discipline.Neutral base (grab n grabbed) := by
  cases grabbed with
  | head port =>
    refine steady.next rfl fun marker => ?_
    split
    · exact neutral_pure
    · refine keeps_ite (fun _ => ?_) fun _ => steady.act rfl
      exact steady.next rfl fun _ => steady.calm.act rfl
  | prune port e => exact steady.calm.act rfl
  | finish port => exact steady.act rfl

@[grind ←]
theorem wakeProducer_steady (e : ChannelRef) : discipline.Neutral base (wakeProducer plant e) := by
  refine keeps_check (clearBackpressure_calm steady.calm e) (fun cleared => ?_)
    fun _ => neutral_pure
  refine neutral_bind (clearsParked_calm steady.calm _) fun _ => ?_
  exact keeps_check (steady.calm.act rfl) (fun _ => retryBlocked_steady steady _)
    fun _ => steady.calm.ready _

@[grind ←]
theorem acquireBatch_steady : discipline.Neutral base (acquireBatch plant n) := by
  refine steady.next rfl fun _ => ?_
  refine steady.next rfl fun (grabs, batch) => ?_
  refine neutral_bind (neutral_each fun _ _ => grab_steady steady n _) fun _ => ?_
  refine steady.next rfl fun _ => ?_
  refine steady.next rfl fun edges => ?_
  refine neutral_bind (neutral_each fun e _ => wakeProducer_steady steady e) fun _ => ?_
  exact neutral_bind (tickIfRetiring_calm steady.calm) fun _ => neutral_pure

@[grind ←]
theorem parkAsync_steady (untilZero : Bool) :
    discipline.Neutral base (parkAsync plant n untilZero) := by
  refine steady.next rfl fun _ => steady.next rfl fun pending => ?_
  refine keeps_ite (fun _ => ?_) fun _ => neutral_pure
  refine keeps_check (steady.act rfl) (fun back => ?_) fun _ => neutral_pure
  exact keeps_check (steady.calm.act rfl) (fun _ => neutral_pure) fun _ => steady.calm.ready n

theorem failAsync_steady : discipline.Neutral base (failAsync n) := by
  refine keeps_check (steady.calm.act rfl) (fun _ => neutral_pure) fun state => ?_
  exact neutral_bind (fail_steady steady n) fun _ => onNodeDone_steady steady n

theorem submission_steady : discipline.Neutral base (submission n) := by
  refine keeps_check (steady.calm.act rfl) (fun _ => steady.act rfl) fun cancelled => ?_
  refine steady.next rfl fun _ => steady.next rfl fun ok => ?_
  refine steady.next rfl fun _ => steady.next rfl fun _ => ?_
  refine keeps_ite (fun _ => neutral_pure) fun _ => ?_
  exact keeps_check (steady.calm.act rfl) (fun _ => neutral_pure)
    fun _ => failAsync_steady steady n

theorem onAsyncIdle_steady : discipline.Neutral base (onAsyncIdle plant n) := by
  refine keeps_check (steady.calm.act rfl) (fun cancelled => ?_) fun cancelled => ?_
  · exact neutral_bind (tryCloseCancelled_steady steady n) fun _ => neutral_pure
  · refine keeps_check (steady.calm.act rfl) (fun state => ?_) fun _ => neutral_pure
    exact keeps_check (steady.calm.act rfl) (fun _ => neutral_pure) fun _ => steady.calm.ready n

theorem completion_steady (plan : Plan) : discipline.Neutral base (completion plant n plan) := by
  refine steady.next rfl fun script => ?_
  refine steady.next rfl fun cancelled => ?_
  have rest (_ : PUnit) : discipline.Neutral base (do
      if ← endAsync n then onAsyncIdle plant n else pure ()) := by
    exact keeps_check (endAsync_steady steady n) (fun _ => onAsyncIdle_steady steady n)
      fun _ => neutral_pure
  refine keeps_ite (fun _ => rest ()) fun _ => keeps_ite (fun _ => ?_) fun _ => ?_
  · exact neutral_bind (failAsync_steady steady n) rest
  · refine keeps_check (steady.calm.act rfl) (fun _ => rest ()) fun state => ?_
    exact neutral_bind (neutral_each fun _ _ => deliver_calm steady.calm n plan _) rest

theorem openNodes_steady (opened nodes : List NodeRef) :
    discipline.Neutral base (openNodes opened nodes) := by
  induction nodes generalizing opened with
  | nil => exact neutral_pure
  | cons n rest ih =>
    refine keeps_check (steady.calm.act rfl) (fun _ => ih opened) fun state => ?_
    refine keeps_check (steady.opens n) (fun _ => ih _) fun ok => ?_
    refine neutral_bind (neutral_each fun m _ => close_steady steady m) fun _ => ?_
    exact neutral_pure

theorem abandonCandidate_steady (candidate : Plan) :
    discipline.Neutral base (abandonCandidate candidate) := by
  refine neutral_bind (neutral_each fun n _ => ?_) fun _ => ?_
  · exact keeps_check (steady.calm.act rfl) (fun _ => neutral_pure)
      fun _ => close_steady steady n
  · exact neutral_each fun _ _ => steady.calm.act rfl

theorem start_steady : discipline.Neutral base (start plant) := by
  refine steady.next rfl fun plan => ?_
  refine keeps_check (openNodes_steady steady [] plan.nodes) (fun opened => ?_)
    fun _ => steady.act rfl
  refine steady.next rfl fun _ => steady.next rfl fun _ => ?_
  exact steady.next rfl fun now => markSources_calm steady.calm now.nodes

theorem resume_steady : discipline.Neutral base (resume plant) := by
  refine steady.next rfl fun _ => steady.next rfl fun plan => ?_
  exact markSources_calm steady.calm plan.nodes

theorem stop_steady (fast : Bool) : discipline.Neutral base (stop plant fast) := by
  refine keeps_check (steady.act rfl) (fun live => ?_) fun live => ?_
  · refine steady.next rfl fun _ => ?_
    refine neutral_bind (neutral_each fun n _ => retireOutputs_calm steady.calm n) fun _ => ?_
    refine steady.next rfl fun plan => ?_
    refine neutral_bind (retireEdges_calm steady.calm plan.edges) fun _ => ?_
    refine neutral_bind (neutral_each fun n _ => ?_) fun _ => ?_
    · exact neutral_bind (tryCloseCancelled_steady steady n) fun _ => neutral_pure
    · exact neutral_bind neutral_run fun _ => checkAllClosed_steady steady
  · refine steady.next rfl fun _ => ?_
    exact neutral_bind (markSources_calm steady.calm live) fun _ => neutral_run

theorem closeAll_steady (nodes : List NodeRef) :
    discipline.Neutral base (closeAll plant nodes) := by
  induction nodes with
  | nil => exact neutral_pure
  | cons n rest ih =>
    refine neutral_bind (tryCloseCancelled_steady steady n) fun closed => ?_
    exact neutral_bind ih fun others => neutral_pure

theorem nudge_steady : discipline.Neutral base (nudge plant n) := by
  refine keeps_check (steady.calm.act rfl) (fun _ => retryBlocked_steady steady n) fun state => ?_
  refine keeps_ite (fun _ => neutral_pure) fun _ => ?_
  refine keeps_check (steady.calm.act rfl) (fun cancelled => ?_) fun _ => steady.calm.ready n
  exact neutral_bind (tryCloseCancelled_steady steady n) fun _ => neutral_pure

theorem tick_steady : discipline.Neutral base (tick plant) := by
  refine neutral_bind (retryInjections_calm steady.calm) fun _ => ?_
  refine keeps_check (steady.calm.act rfl) (fun pending => ?_) fun _ => neutral_pure
  refine steady.next rfl fun nodes => ?_
  exact neutral_bind (neutral_each fun n _ => nudge_steady steady n) fun _ => neutral_run

omit steady in
theorem settle_steady (completes : discipline.Neutral base (completeRetired plant)) :
    discipline.Neutral base (settle plant) := by
  exact keeps_check completes (fun _ => neutral_run) fun _ => neutral_pure

theorem publish_steady (next : Plan) (policy : RemovePolicy) :
    discipline.Neutral base (publish plant next policy) := by
  refine keeps_check (steady.calm.act rfl) (fun _ => neutral_pure) fun stopping => ?_
  refine steady.next rfl fun prev => ?_
  refine neutral_bind (neutral_each fun _ _ => steady.act rfl) fun _ => ?_
  refine neutral_bind (neutral_each fun _ _ => ?_) fun _ => ?_
  · exact steady.next rfl fun _ => steady.act rfl
  refine keeps_check (steady.act rfl) (fun swapped => ?_) fun swapped => ?_
  · refine steady.next rfl fun _ => ?_
    refine neutral_bind (retryInjections_calm steady.calm) fun _ => ?_
    refine neutral_bind (neutral_each fun _ _ => steady.act rfl) fun _ => ?_
    refine steady.next rfl fun started => ?_
    have ticks (_ : PUnit) : discipline.Neutral base (do Code.run .tick; pure true) :=
      neutral_bind neutral_run fun _ => neutral_pure
    refine keeps_ite (fun _ => ?_) fun _ => ticks ()
    refine neutral_bind (neutral_each fun _ _ => kick_calm steady.calm _) fun _ => ?_
    exact neutral_bind (neutral_each fun _ _ => kick_calm steady.calm _) ticks
  · refine neutral_bind (neutral_each fun n _ => ?_) fun _ => neutral_pure
    exact steady.next rfl fun _ => steady.calm.ready n

theorem mutate_steady (before candidate : Plan) (policy : RemovePolicy) :
    discipline.Neutral base (mutate plant before candidate policy) := by
  have rest (published : Bool) : discipline.Neutral base (do
      if published then pure () else abandonCandidate candidate
      atomic (.endMutation candidate before published)) := by
    have ends (_ : PUnit) : discipline.Neutral base
        (atomic (.endMutation candidate before published)) := steady.act rfl
    refine keeps_ite (fun _ => ends ()) fun _ => ?_
    exact neutral_bind (abandonCandidate_steady steady candidate) ends
  refine keeps_check (openNodes_steady steady [] candidate.nodes) (fun opened => ?_)
    fun _ => rest false
  refine keeps_check (steady.calm.act rfl) (fun goes => ?_) fun _ => rest false
  exact neutral_bind (publish_steady steady candidate policy) rest

end Procedures

section Invocations

/-- Operations of an invocation on counters, and between ready and running. -/
@[reducible]
def isServing : Op → Bool
  | .enterBusy _ | .exitBusy _ | .enterFlight _ | .leaveFlight _ => true
  | .beginAsync _ | .dispatch .. => true
  | .casState _ old new => old = .ready && new = .running || old = .running && new = .ready
  | _ => false

/-- The discipline follows the invocations of a node: the share of a reserved slot before
and past the first gate, and the share of a data call. -/
structure Invokes (discipline : Discipline (scheduler plant) rules Share) (base : World)
    (n : NodeRef) (slot : Bool → Share) (calling : Share) : Prop where
  steady : Steady discipline base
  serving : ∀ op, isServing op = true → discipline.Trades base op 0 fun _ => 0
  gate : discipline.Trades base (.state n) (slot false) fun state => slot (isRunnable state)
  frees : ∀ past, discipline.Trades base (.freeSlot n) (slot past) fun _ => 0
  turnsBack : discipline.Trades base (.turnBack n) (slot true) fun _ => 0
  begins : discipline.Trades base (.record n .processBegin) (slot true) fun _ => calling
  ends : discipline.Trades base (.record n .processEnd) calling fun _ => slot true

variable {n : NodeRef} {slot : Bool → Share} {calling : Share}
variable (invokes : Invokes discipline base n slot calling)

include invokes

theorem Invokes.act {op : Op} (known : isServing op = true) : discipline.Neutral base (atomic op) :=
  neutral_atomic (invokes.serving op known)

attribute [grind →] Invokes.steady

theorem Invokes.freeSlot : discipline.Ends base (atomic (.freeSlot n)) (slot true) :=
  ends_act (invokes.frees true)

theorem Invokes.turnBack : discipline.Ends base (atomic (.turnBack n)) (slot true) :=
  ends_act invokes.turnsBack

theorem beginInvoke_neutral : discipline.Neutral base (beginInvoke n) := by
  refine neutral_bind (invokes.act rfl) fun _ => ?_
  exact neutral_bind (invokes.act rfl) fun _ => neutral_pure

theorem endInvoke_ends : discipline.Ends base (endInvoke n) (slot true) := by
  refine keeps_neutral (invokes.act rfl) fun left => ?_
  refine ends_bind invokes.freeSlot fun _ => ?_
  split
  · exact neutral_bind (invokes.act rfl) fun _ => neutral_pure
  · exact ends_pure

variable (plan : Plan)

theorem runProcessCall_ends : discipline.Ends base (runProcessCall plant n plan) (slot true) := by
  have calm := invokes.steady.calm
  refine keeps_atomic invokes.begins fun _ => ?_
  refine ends_after (calm.act rfl) fun script => ?_
  refine ends_after (neutral_each fun _ _ => emit_calm calm n plan _) fun _ => ?_
  refine keeps_atomic invokes.ends fun _ => ?_
  split
  · refine ends_after (calm.act rfl) fun cancelled => ?_
    split
    · exact ends_bind (endInvoke_ends invokes) fun _ => neutral_pure
    · refine ends_after (fail_steady invokes.steady n) fun _ => ?_
      exact ends_bind (endInvoke_ends invokes) fun _ => by grind
  · exact ends_bind (endInvoke_ends invokes) fun _ => by grind

theorem produce_ends : discipline.Ends base (produce plant n plan) (slot true) := by
  refine ends_after (beginInvoke_neutral invokes) fun _ => ?_
  exact ends_bind (runProcessCall_ends invokes plan) fun outcome => by grind

theorem runSource_ends : discipline.Ends base (runSource plant n plan) (slot true) := by
  refine keeps_check (by grind [sourceWaits]) (fun _ => invokes.freeSlot) fun waits => ?_
  refine ends_after (by grind [sourceEnds]) fun ends => ?_
  split
  · exact ends_bind invokes.freeSlot fun _ => drainAndFinish_steady invokes.steady _
  · exact produce_ends invokes plan

theorem consume_ends : discipline.Ends base (consume plant n plan) (slot true) := by
  refine ends_after (beginInvoke_neutral invokes) fun _ => ?_
  exact ends_bind (runProcessCall_ends invokes plan) fun outcome => by grind

theorem runProcess_ends : discipline.Ends base (runProcess plant n plan) (slot true) := by
  refine ends_after (acquireBatch_steady invokes.steady _) fun batch => ?_
  split
  · exact consume_ends invokes plan
  · exact ends_bind invokes.freeSlot fun _ => by grind

theorem handOver_ends : discipline.Ends base (handOver n plan) (slot true) := by
  refine ends_after (beginInvoke_neutral invokes) fun _ => ?_
  refine ends_after (invokes.act rfl) fun _ => ?_
  refine ends_after (invokes.act rfl) fun _ => ?_
  exact ends_bind (endInvoke_ends invokes) fun _ => by grind

theorem runAsync_ends : discipline.Ends base (runAsync plant n plan) (slot true) := by
  have steady := invokes.steady
  refine keeps_check (steady.calm.act rfl) (fun pending => ?_) fun pending => ?_
  · exact ends_bind invokes.freeSlot fun _ => parkAsync_steady steady _ false
  refine ends_after (acquireBatch_steady steady _) fun batch => ?_
  split
  · split
    · exact ends_bind invokes.freeSlot fun _ => by grind
    · exact handOver_ends invokes plan
  · exact ends_bind invokes.freeSlot fun _ => by grind

theorem runNode_ends : discipline.Ends base (runNode plant n plan) (slot true) := by
  have calm := invokes.steady.calm
  refine ends_after (clearsParked_calm calm n) fun clear => ?_
  refine keeps_ite (fun _ => ends_bind invokes.turnBack fun _ => by grind) fun _ => ?_
  refine ends_after (outputsBlocked_calm calm n plan) fun blocked => ?_
  refine keeps_ite (fun _ => ends_bind invokes.turnBack fun _ => by grind) fun _ => ?_
  refine keeps_ite (fun _ => runSource_ends invokes plan) fun _ => ?_
  split
  · exact runAsync_ends invokes plan
  · exact runProcess_ends invokes plan

theorem invokeBody_ends (plan : Option Plan) :
    discipline.Ends base (invokeBody plant n plan) (slot false) := by
  have calm := invokes.steady.calm
  refine keeps_atomic invokes.gate fun state => ?_
  split
  · exact ends_act (invokes.frees _)
  rename_i stands
  have runs : isRunnable state = true := by simpa using stands
  rw [runs]
  refine keeps_check (calm.act rfl) (fun _ => invokes.freeSlot) fun fastStop => ?_
  refine keeps_check (calm.act rfl) (fun _ => invokes.freeSlot) fun cancelled => ?_
  refine keeps_check (calm.act rfl) (fun _ => invokes.freeSlot) fun held => ?_
  cases plan with
  | none => exact invokes.freeSlot
  | some plan => exact runNode_ends invokes plan

theorem invoke_ends : discipline.Ends base (invoke plant n) (slot false) := by
  refine ends_after (invokes.act rfl) fun _ => ?_
  refine ends_after (invokes.steady.calm.act rfl) fun plan => ?_
  refine ends_bind (invokeBody_ends invokes plan) fun _ => neutral_bind (invokes.act rfl) fun _ => ?_
  grind

end Invocations

end GraphEngine.ControlPlane
