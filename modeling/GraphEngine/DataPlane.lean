import GraphEngine.Ownership
import GraphEngine.SchedulerRuns

/-!
The procedures that only move packets and wake nodes. Under every discipline that
is indifferent to the operations on edges, bindings, parked packets and pending
markers, and to waking a node, they need no share and leave none.
-/

namespace GraphEngine.DataPlane

open NodeRuntimes EdgeQueues Interleavings Ownership SchedulerStates SchedulerOperations
open SchedulerCode SchedulerRuns

/-- Operations on edges, bindings, parked packets and pending markers, and plain
loads. -/
@[reducible]
def isQuiet : Op → Bool
  | .state _ | .held _ | .cancelled _ | .retiring _ | .topologyOf _ | .asyncPending _ => true
  | .script | .answer | .keepBlocked .. => true
  | .push .. | .offer .. | .isFull _ | .block _ | .unblock _ | .undoBlock _ | .retireEdge .. => true
  | .lockBinding _ | .unlockBinding _ | .acquire | .takeHead .. | .prune .. | .forget .. => true
  | .boundEdges _ | .mayBeReady _ | .inputEnded _ => true
  | .anyParked | .hasParked _ | .hasParkedFor .. | .park .. | .dropParked _ => true
  | .lockPass | .unlockPass | .parkedOf _ | .writeBack .. => true
  | .lockSend | .unlockSend | .eosPorts _ | .eraseEos .. => true
  | .isPaused | .setPaused _ | .isStopping | .isFastStop | .isStarted | .current => true
  | .retirePending | .retiringNodes | .inject => true
  | _ => false

variable {plant : Plant} {rules : Rules World Op Arrival} {Share Value Item : Type}
variable [AddCommMonoid Share] {discipline : Discipline (scheduler plant) rules Share}
variable {base : World}

/-- The discipline does not see packets, and a node may be woken at any time. -/
structure Calm (discipline : Discipline (scheduler plant) rules Share) (base : World) : Prop where
  quiet : ∀ op, isQuiet op = true → discipline.Trades base op 0 fun _ => 0
  ready : ∀ n, discipline.Neutral base (markReady n)

theorem Calm.act {op : Op} (calm : Calm discipline base) (quiet : isQuiet op = true) :
    discipline.Neutral base (atomic op) :=
  neutral_atomic (calm.quiet op quiet)

attribute [grind ←] neutral_pure neutral_bind neutral_run neutral_each Calm.act Calm.ready

section Procedures

variable (calm : Calm discipline base) (n : NodeRef) (e : ChannelRef)

include calm

@[grind ←]
theorem clearBackpressure_calm : discipline.Neutral base (clearBackpressure e) := by
  grind [clearBackpressure]

@[grind ←]
theorem markBackpressured_calm : discipline.Neutral base (markBackpressured e) := by
  refine neutral_bind (calm.act rfl) fun state => ?_
  cases state <;> grind

@[grind ←]
theorem edgeBlocked_calm : discipline.Neutral base (edgeBlocked plant e) := by
  grind [edgeBlocked]

@[grind ←]
theorem blockedEdges_calm (edges : List ChannelRef) :
    discipline.Neutral base (blockedEdges plant edges) := by
  induction edges with
  | nil | cons e rest ih => grind [blockedEdges]

@[grind ←]
theorem outputsBlocked_calm (plan : Plan) :
    discipline.Neutral base (outputsBlocked plant n plan) := by
  grind [outputsBlocked]

@[grind ←]
theorem hasParked_calm : discipline.Neutral base (hasParked n) := by
  grind [hasParked]

@[grind ←]
theorem hasParkedFor_calm : discipline.Neutral base (hasParkedFor n e) := by
  grind [hasParkedFor]

variable (packet : Packet)

@[grind ←]
theorem park_calm : discipline.Neutral base (park n e packet) := by
  grind [park]

@[grind ←]
theorem repush_calm (blocked : List ChannelRef) (work : List (ChannelRef × Packet)) :
    discipline.Neutral base (repush plant blocked work) := by
  induction work generalizing blocked with
  | nil | cons entry rest ih => grind [repush]

@[grind ←]
theorem retryPass_calm : discipline.Neutral base (retryPass plant n) := by
  refine neutral_bind (calm.act rfl) fun work => ?_
  split
  · exact neutral_pure
  · refine neutral_bind (calm.act rfl) fun cancelled => ?_
    grind

@[grind ←]
theorem retryParked_calm : discipline.Neutral base (retryParked plant n) := by
  grind [retryParked]

@[grind ←]
theorem clearsParked_calm : discipline.Neutral base (clearsParked plant n) := by
  grind [clearsParked]

@[grind ←]
theorem pushMarker_calm (edges : List ChannelRef) :
    discipline.Neutral base (pushMarker plant edges) := by
  induction edges with
  | nil | cons e rest ih => grind [pushMarker]

@[grind ←]
theorem sendEos_calm (plan : Option Plan) (ports : List String) :
    discipline.Neutral base (sendEos plant n plan ports) := by
  induction ports with
  | nil | cons port rest ih => grind [sendEos]

@[grind ←]
theorem pushOnRoute_calm (e : ChannelRef) :
    discipline.Neutral base (pushOnRoute plant n packet e) := by
  refine neutral_bind (calm.act rfl) fun _ => ?_
  grind

@[grind ←]
theorem pushOnRoutes_calm (edges : List ChannelRef) :
    discipline.Neutral base (pushOnRoutes plant n packet edges) := by
  induction edges with
  | nil | cons e rest ih => grind [pushOnRoutes]

@[grind ←]
theorem emit_calm (plan : Plan) (emission : Emission) :
    discipline.Neutral base (emit plant n plan emission) := by
  grind [emit]

@[grind ←]
theorem pushResult_calm (e : ChannelRef) :
    discipline.Neutral base (pushResult plant n packet e) := by
  grind [pushResult]

@[grind ←]
theorem pushResults_calm (edges : List ChannelRef) :
    discipline.Neutral base (pushResults plant n packet edges) := by
  induction edges with
  | nil | cons e rest ih => grind [pushResults]

@[grind ←]
theorem deliver_calm (plan : Plan) (emission : Emission) :
    discipline.Neutral base (deliver plant n plan emission) := by
  grind [deliver]

@[grind ←]
theorem redelivery_calm (e : ChannelRef) (packet : Packet) :
    discipline.Neutral base (redelivery plant n e packet) := by
  grind [redelivery]

@[grind ←]
theorem markSources_calm (nodes : List NodeRef) :
    discipline.Neutral base (markSources plant nodes) := by
  grind [markSources]

@[grind ←]
theorem retireEdges_calm (edges : List ChannelRef) :
    discipline.Neutral base (retireEdges edges) := by
  grind [retireEdges]

@[grind ←]
theorem retireOutputs_calm (n : NodeRef) : discipline.Neutral base (retireOutputs n) := by
  grind [retireOutputs]

@[grind ←]
theorem retryInjections_calm : discipline.Neutral base retryInjections := by
  grind [retryInjections]

@[grind ←]
theorem tickIfRetiring_calm : discipline.Neutral base tickIfRetiring := by
  grind [tickIfRetiring]

@[grind ←]
theorem markIfReady_calm (n : NodeRef) : discipline.Neutral base (markIfReady n) := by
  grind [markIfReady]

@[grind ←]
theorem kick_calm (n : NodeRef) : discipline.Neutral base (kick plant n) := by
  grind [kick]

end Procedures

end GraphEngine.DataPlane
