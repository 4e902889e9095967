import GraphEngine.SessionParameters

/-!
The hot parameters of one node over a whole run. A submission promises a version while
another update is pending, and the promise is kept by a later packet boundary: the
invariant ties the promised versions to the switches made so far. The executor turns
decide when a boundary comes, and a source turn never makes one.
-/

namespace GraphEngine.HotParameters

open Values OrderedMaps NodeRuntimes SessionParameters GraphSpecs Capabilities KeyedLists Fallible
  Applier Topologies Sessions SessionRuns TopologyChains Option ParameterStore
open List hiding keys

def valuesAfter (initial : JsonValue) (updates : List JsonObject) (count : Nat) : JsonObject :=
  replay (updates.take count) initial.asObject

/-- Of the updates accepted so far `count` took effect, the next one is pending and the
others are queued behind it. -/
structure InTurn (initial : JsonValue) (hot : List String) (updates : List JsonObject)
    (count : Nat) (store : ParameterStore) : Prop where
  bounded : count ≤ updates.length
  allowed : ∀ update ∈ updates, ∀ key ∈ keys update, key ∈ hot
  listed : updates ≠ [] → store.lastHotUpdatable = hot
  version : store.current.version = count + 1
  values : store.current.values = valuesAfter initial updates count
  pending : store.pending = updates[count]?.map fun _ =>
    { version := count + 2, values := valuesAfter initial updates (count + 1) }
  queued : store.queued.map (fun request => request.values.asObject) = updates.drop (count + 1)

variable {initial : JsonValue} {hot : List String} {updates : List JsonObject} {count : Nat}
  {store after : ParameterStore}

theorem valuesAfter_append {update : JsonObject} (bounded : count ≤ updates.length) :
    valuesAfter initial (updates ++ [update]) count = valuesAfter initial updates count := by
  simp [valuesAfter, take_append_of_le_length bounded]

theorem valuesAfter_succ {update : JsonObject} (found : updates[count]? = some update) :
    valuesAfter initial updates (count + 1) =
      overlay update (valuesAfter initial updates count) := by
  simp [valuesAfter, replay, take_add_one, found]

theorem submit_inTurn {request : ParameterUpdateRequest} {version : Nat}
    (turn : InTurn initial hot updates count store)
    (submitted : store.submit request hot = .ok (after, version)) :
    InTurn initial hot (updates ++ [request.values.asObject]) count after ∧
      version = updates.length + 2 := by
  have bounded := turn.bounded
  have pending := turn.pending
  unfold submit at submitted
  split at submitted
  · cases submitted
  split at submitted
  · cases submitted
  rename_i allowed
  have checked : ∀ update ∈ updates ++ [request.values.asObject], ∀ key ∈ keys update,
      key ∈ hot := by
    refine forall_mem_append.mpr ⟨turn.allowed, forall_mem_singleton.mpr ?_⟩
    intro key inside
    simpa using find?_eq_none.mp allowed key inside
  cases found : updates[count]? with
  | none =>
    -- Every update took effect, so this one becomes pending at once.
    obtain rfl : count = updates.length := by
      have := getElem?_eq_none_iff.mp found
      omega
    rw [found] at pending
    simp only [pending] at submitted
    cases submitted
    refine ⟨⟨by simp, checked, fun _ => rfl, turn.version, ?_, ?_, ?_⟩, ?_⟩
    · rw [valuesAfter_append bounded]
      exact turn.values
    · rw [valuesAfter_succ getElem?_concat_length, valuesAfter_append bounded, ← turn.values]
      simp [ParameterStore.next, turn.version]
    · rw [turn.queued]
      simp
    · simp [ParameterStore.next, turn.version]
  | some update =>
    have early := (List.getElem?_eq_some_iff.mp found).1
    rw [found] at pending
    simp only [pending, map_some] at submitted
    cases submitted
    have queued := congrArg length turn.queued
    refine ⟨⟨by simp; omega, checked, fun _ => rfl, turn.version, ?_, ?_, ?_⟩, ?_⟩
    · rw [valuesAfter_append bounded]
      exact turn.values
    · rw [valuesAfter_append early, getElem?_append_left early, found]
      rfl
    · rw [map_append, turn.queued, drop_append_of_le_length early]
      rfl
    · simp only [length_map, length_drop] at queued
      simp; omega

theorem boundary_inTurn (seq : Nat) (turn : InTurn initial hot updates count store) :
    InTurn initial hot updates (min (count + 1) updates.length)
      (store.switchAtPacketBoundary seq) := by
  have bounded := turn.bounded
  have pending := turn.pending
  unfold switchAtPacketBoundary
  cases found : updates[count]? with
  | none =>
    have all := getElem?_eq_none_iff.mp found
    rw [found] at pending
    rw [pending, show min (count + 1) updates.length = count by omega]
    exact turn
  | some update =>
    have early := (List.getElem?_eq_some_iff.mp found).1
    rw [found] at pending
    rw [pending, show min (count + 1) updates.length = count + 1 by omega]
    simp only [map_some, promoteQueued]
    have queued := turn.queued
    cases waiting : store.queued with
    | nil =>
      rw [waiting] at queued
      have none : updates.length ≤ count + 1 := drop_eq_nil_iff.mp queued.symm
      refine ⟨early, turn.allowed, turn.listed, rfl, rfl, ?_, ?_⟩
      · rw [getElem?_eq_none none]
        rfl
      · rw [drop_of_length_le (by omega)]
        rfl
    | cons request rest =>
      rw [waiting] at queued
      have next : updates[count + 1]? = some request.values.asObject := by
        rw [← head?_drop, ← queued]
        rfl
      have listed := turn.listed (ne_nil_of_length_pos (by omega))
      have allowed : (keys request.values.asObject).all (· ∈ store.lastHotUpdatable) = true := by
        rw [listed, List.all_eq_true]
        exact fun key inside =>
          decide_eq_true (turn.allowed _ (mem_of_getElem? next) key inside)
      rw [promote, if_pos allowed]
      refine ⟨early, turn.allowed, turn.listed, rfl, rfl, ?_, ?_⟩
      · rw [next, valuesAfter_succ next]
        rfl
      · rw [← tail_drop, ← queued]
        rfl

/-- A store with the updates it accepted, the versions it promised for them and the
snapshots it switched to. -/
structure History where
  store : ParameterStore
  accepted : List JsonObject := []
  promised : List Nat := []
  switched : List ParameterSnapshot := []

namespace History

def submit (hot : List String) (request : ParameterUpdateRequest) (history : History) : History :=
  match history.store.submit request hot with
  | .ok (store, version) => { history with
      store := store
      accepted := history.accepted ++ [request.values.asObject]
      promised := history.promised ++ [version] }
  | .error _ => history

def boundary (seq : Nat) (history : History) : History :=
  let store := history.store.switchAtPacketBoundary seq
  { history with
    store := store
    switched := history.switched ++ history.store.pending.toList.map fun _ => store.current }

structure Kept (initial : JsonValue) (hot : List String) (history : History) : Prop where
  inTurn : InTurn initial hot history.accepted history.switched.length history.store
  promised : history.promised = range' 2 history.accepted.length
  switched : ∀ index snapshot, history.switched[index]? = some snapshot →
    snapshot.version = index + 2 ∧
      snapshot.values = valuesAfter initial history.accepted (index + 1)

variable {history : History}

theorem submit_kept (request : ParameterUpdateRequest) (kept : Kept initial hot history) :
    Kept initial hot (history.submit hot request) := by
  unfold submit
  split
  · next store version submitted =>
    obtain ⟨turn, same⟩ := submit_inTurn kept.inTurn submitted
    refine ⟨turn, ?_, ?_⟩
    · rw [kept.promised, same, length_append, length_singleton, range'_1_concat, Nat.add_comm]
    · intro index snapshot found
      have early := (List.getElem?_eq_some_iff.mp found).1
      rw [valuesAfter_append (lt_of_lt_of_le early kept.inTurn.bounded)]
      exact kept.switched index snapshot found
  · exact kept

theorem boundary_kept (seq : Nat) (kept : Kept initial hot history) :
    Kept initial hot (history.boundary seq) ∧ (history.boundary seq).switched.length =
      min (history.switched.length + 1) history.accepted.length := by
  have turn := boundary_inTurn seq kept.inTurn
  have bounded := kept.inTurn.bounded
  have pending := kept.inTurn.pending
  unfold boundary
  cases found : history.accepted[history.switched.length]? with
  | none =>
    have all := getElem?_eq_none_iff.mp found
    rw [show min (history.switched.length + 1) history.accepted.length =
      history.switched.length by omega] at turn ⊢
    rw [pending, found]
    simp only [map_none, toList_none, map_nil, append_nil, and_true]
    exact ⟨turn, kept.promised, kept.switched⟩
  | some update =>
    have early := (List.getElem?_eq_some_iff.mp found).1
    rw [show min (history.switched.length + 1) history.accepted.length =
      history.switched.length + 1 by omega] at turn ⊢
    rw [pending, found]
    refine ⟨⟨by simpa using turn, kept.promised, ?_⟩, length_append⟩
    intro index snapshot inside
    rw [getElem?_append] at inside
    split at inside
    · exact kept.switched index snapshot inside
    · next late =>
      obtain ⟨last, rfl⟩ := List.getElem?_eq_some_iff.mp inside
      obtain rfl : index = history.switched.length := by
        simp at last
        omega
      exact ⟨by simpa using turn.version, by simpa using turn.values⟩

end History

inductive Event where
  | submit (request : ParameterUpdateRequest)
  | boundary (seq : Nat)

def step (hot : List String) (history : History) : Event → History
  | .submit request => history.submit hot request
  | .boundary seq => history.boundary seq

def run (initial : JsonValue) (hot : List String) (events : List Event) : History :=
  events.foldl (step hot) { store := .create initial }

theorem run_kept (initial : JsonValue) (hot : List String) (events : List Event) :
    (run initial hot events).Kept initial hot := by
  refine foldlRecOn events (step hot) ?_ fun history kept event _ => ?_
  · exact ⟨⟨Nat.le_refl 0, nofun, fun some => (some rfl).elim, rfl, rfl, rfl, rfl⟩, rfl, nofun⟩
  · cases event with
    | submit request => exact History.submit_kept request kept
    | boundary seq => exact (History.boundary_kept seq kept).1

/-- Over every run of submissions and packet boundaries: the accepted updates take effect
in their order, one at each boundary, under the version that was promised. -/
theorem updates_in_turn (initial : JsonValue) (hot : List String) (events : List Event) :
    let history := run initial hot events
    history.promised = range' 2 history.accepted.length ∧
    history.switched.length ≤ history.accepted.length ∧
    (∀ index snapshot, history.switched[index]? = some snapshot →
      history.promised[index]? = some snapshot.version ∧
      snapshot.values = valuesAfter initial history.accepted (index + 1)) ∧
    history.store.current.version = history.switched.length + 1 ∧
    history.store.current.values = valuesAfter initial history.accepted history.switched.length ∧
    (∀ seq, (history.boundary seq).switched.length =
      min (history.switched.length + 1) history.accepted.length) ∧
    (∀ request error, history.store.submit request hot = .error error →
      history.submit hot request = history) := by
  intro history
  have kept := run_kept initial hot events
  refine ⟨kept.promised, kept.inTurn.bounded, ?_, kept.inTurn.version, kept.inTurn.values,
    fun seq => (History.boundary_kept seq kept).2, ?_⟩
  · intro index snapshot found
    obtain ⟨version, values⟩ := kept.switched index snapshot found
    have early := (List.getElem?_eq_some_iff.mp found).1.trans_le kept.inTurn.bounded
    refine ⟨?_, values⟩
    rw [kept.promised, getElem?_range' early]
    congr 1
    omega
  · intro request error refused
    simp [History.submit, refused]

/-- What one executor turn of a node reads; the batch by its first sequence number. -/
structure Reading where
  paused : Bool := false
  stopping : Bool := false
  retiring : Bool := false
  batch : Option Nat := none
  asyncFull : Bool := false
  asyncAttached : Bool := true

/-- `RunSource`: whether the operator is invoked, and the packet boundary before that. -/
def runSource (reading : Reading) : Option (Option Nat) :=
  if reading.paused && !reading.retiring then none
  else if reading.stopping || reading.retiring then none
  else some none

def runProcess (reading : Reading) : Option (Option Nat) := reading.batch.map some

def runAsync (reading : Reading) : Option (Option Nat) :=
  if reading.asyncFull then none
  else
    match reading.batch with
    | none => none
    | some seq => if !reading.asyncAttached then none else some (some seq)

inductive Kind where
  | source | process | async
  deriving DecidableEq

def Kind.turn : Kind → Reading → Option (Option Nat)
  | .source => runSource
  | .process => runProcess
  | .async => runAsync

inductive NodeEvent where
  | submit (request : ParameterUpdateRequest)
  | turn (reading : Reading)

def NodeEvent.invokes (kind : Kind) : NodeEvent → Bool
  | .submit _ => false
  | .turn reading => (kind.turn reading).isSome

def NodeEvent.events (kind : Kind) : NodeEvent → List Event
  | .submit request => [.submit request]
  | .turn reading => (kind.turn reading).join.toList.map .boundary

/-- The parameters of a node of some kind over a run of calls and turns. -/
def live (kind : Kind) (initial : JsonValue) (hot : List String) (events : List NodeEvent) :
    History :=
  run initial hot (events.flatMap (NodeEvent.events kind))

theorem turn_boundary {kind : Kind} (fed : kind ≠ .source) {reading : Reading}
    {boundary : Option Nat} (invoked : kind.turn reading = some boundary) :
    ∃ seq, boundary = some seq := by
  cases kind with
  | source => exact absurd rfl fed
  | process =>
    obtain ⟨seq, -, rfl⟩ := map_eq_some_iff.mp invoked
    exact ⟨seq, rfl⟩
  | async =>
    simp only [Kind.turn, runAsync] at invoked
    split at invoked
    · cases invoked
    split at invoked
    · cases invoked
    · next seq _ =>
      split at invoked
      · cases invoked
      · exact ⟨seq, (Option.some.inj invoked).symm⟩

section Fed

variable {kind : Kind} (fed : kind ≠ .source) (initial : JsonValue) (hot : List String)
include fed

theorem live_step (events : List NodeEvent) (event : NodeEvent) :
    (live kind initial hot events).accepted.length ≤
      (live kind initial hot (events ++ [event])).accepted.length ∧
    min ((live kind initial hot events).switched.length + [event].countP (NodeEvent.invokes kind))
      (live kind initial hot events).accepted.length ≤
        (live kind initial hot (events ++ [event])).switched.length := by
  have kept := run_kept initial hot (events.flatMap (NodeEvent.events kind))
  simp only [live, run, flatMap_append, flatMap_singleton, foldl_append]
  rw [← run]
  cases event with
  | submit request =>
    simp only [NodeEvent.events, foldl_cons, step, History.submit]
    split <;> simp [NodeEvent.invokes]
  | turn reading =>
    cases turn : kind.turn reading with
    | none => simp [NodeEvent.events, NodeEvent.invokes, turn]
    | some boundary =>
      obtain ⟨seq, rfl⟩ := turn_boundary fed turn
      have moved := (History.boundary_kept seq kept).2
      simp only [NodeEvent.events, turn, join_some, toList_some, map_cons,
        map_nil, foldl_cons, foldl_nil, step, moved]
      exact ⟨Nat.le_refl _, by simp [NodeEvent.invokes, turn]⟩

theorem live_advances (earlier later : List NodeEvent) :
    (live kind initial hot earlier).accepted.length ≤
      (live kind initial hot (earlier ++ later)).accepted.length ∧
    min ((live kind initial hot earlier).switched.length + later.countP (NodeEvent.invokes kind))
      (live kind initial hot earlier).accepted.length ≤
        (live kind initial hot (earlier ++ later)).switched.length := by
  induction later using reverseRecOn with
  | nil => simp
  | append_singleton later event ih =>
    obtain ⟨grown, moved⟩ := live_step fed initial hot (earlier ++ later) event
    rw [← append_assoc, countP_append]
    omega

end Fed

theorem update_switched_in {kind : Kind} (fed : kind ≠ .source) {initial : JsonValue}
    {hot : List String} {earlier later : List NodeEvent} {index : Nat}
    (accepted : index < (live kind initial hot earlier).accepted.length)
    (turns : index < (live kind initial hot earlier).switched.length +
      later.countP (NodeEvent.invokes kind)) :
    index < (live kind initial hot (earlier ++ later)).switched.length := by
  have moved := (live_advances fed initial hot earlier later).2
  omega

def louder (operation : Nat) : NodeEvent :=
  .submit { operation := operation, values := .object [("gain", .number 2)] }

theorem second_update_switched_in : 1 < (live .async (.object []) ["gain"]
      ([louder 1, louder 2] ++ [.turn { batch := some 5 }, .turn { batch := some 6 }])).switched.length := by
  exact update_switched_in (by decide) (by decide +kernel) (by decide +kernel)

/-- An accepted update of a source stays pending however often the source is invoked. -/
theorem source_waits (turns : Nat) :
    let events := louder 1 :: replicate turns (.turn {})
    events.countP (NodeEvent.invokes .source) = turns ∧
      (live .source (.object []) ["gain"] events).accepted.length = 1 ∧
      (live .source (.object []) ["gain"] events).switched = [] := by
  intro events
  have quiet : events.flatMap (NodeEvent.events .source) = (louder 1).events .source := by
    refine (congrArg _ (flatMap_eq_nil_iff.mpr ?_)).trans (append_nil _)
    intro event member
    rw [eq_of_mem_replicate member]
    rfl
  rw [live, quiet]
  refine ⟨?_, by decide +kernel, by decide +kernel⟩
  simp [events, countP_replicate, louder, NodeEvent.invokes, Kind.turn, runSource]

theorem source_never_switches :
    let events := louder 1 :: replicate 1000 (.turn {})
    events.countP (NodeEvent.invokes .source) = 1000 ∧
      (live .source (.object []) ["gain"] events).accepted.length = 1 ∧
      (live .source (.object []) ["gain"] events).switched = [] :=
  source_waits 1000

section Replaced

theorem find_inherited {cap : CapabilityDescriptor} {requested values options : JsonObject}
    {key : String} {value : JsonValue} (migratable : key ∈ cap.parameters.migratable)
    (unset : find key requested = none) (found : find key values = some value) :
    find key (inherited cap requested values options) = some value := by
  unfold inherited
  revert migratable
  induction cap.parameters.migratable using reverseRecOn with
  | nil => exact nofun
  | append_singleton front last ih =>
    intro listed
    rw [foldl_append, foldl_cons, foldl_nil]
    by_cases same : key = last
    · subst same
      simp [unset, found, find_assign]
    · have earlier := ih (by simpa [same] using listed)
      split
      · exact earlier
      · split
        · rw [find_assign, if_neg same, earlier]
        · exact earlier

def Holds (id key : String) (value : JsonValue) (spec : GraphSpec) : Prop :=
  ∀ node ∈ spec.nodes, node.id = id → find key node.options.asObject = some value

variable {describe : CapabilityResolver} {store : Store} {base : RuntimeTopology}
  {candidate : GraphSpec} {id key : String} {value : JsonValue}

theorem holds_withOptions (other : String) {options : JsonValue}
    (own : other = id → find key options.asObject = some value)
    (holds : other ≠ id → Holds id key value candidate) :
    Holds id key value (withOptions candidate other options) := by
  intro node member named
  obtain ⟨old, listed, rfl⟩ := mem_map.mp member
  split_ifs at named ⊢ with same
  · exact own (same.symm.trans named)
  · exact holds (fun equal => same (named.trans equal.symm)) old listed named

theorem holds_migrateOne {action : MutationAction} (holds : Holds id key value candidate)
    (apart : ∀ replace, action = .replaceNode replace → replace.node ≠ id) :
    Holds id key value (migrateOne describe store base candidate action) := by
  unfold migrateOne
  split
  · split
    · exact holds_withOptions _ (fun same => absurd same (apart _ rfl)) fun _ => holds
    · exact holds
  · exact holds

variable {replace : ReplaceNodeAction} {old : NodeRuntime} {cap : CapabilityDescriptor}

theorem holds_replaced (located : (base.findNode store replace.node).bind (store.nodes[·]?) = some old)
    (described : describe replace.replacementOp = some cap)
    (migratable : key ∈ cap.parameters.migratable)
    (unset : find key replace.replacementOptions.asObject = none)
    (found : find key old.parameters.current.values = some value) :
    Holds replace.node key value (migrateOne describe store base candidate (.replaceNode replace)) := by
  unfold migrateOne
  cases fresh : candidate.findNode replace.node with
  | none =>
    simp only [located, fresh]
    exact fun node member named =>
      absurd (mem_map.mpr ⟨node, member, named⟩) (lookup_none.mp fresh)
  | some node =>
    simp only [located, fresh, described]
    exact holds_withOptions _ (fun _ => find_inherited migratable unset found) (absurd rfl)

def swapFilter : ReplaceNodeAction where
  node := "filter"
  replacementOp := ⟨"Filter", "2"⟩
  replacementOptions := .object []

def swapPatch : MutationPatch where
  actions := [.replaceNode swapFilter]

def raiseGain : ParameterUpdateRequest := ⟨7, .object [("gain", .integer 5)]⟩

def gainRun (events : List Event) : History := run (.object [("gain", .integer 1)]) ["gain"] events

def pendingSession : Session :=
  { quietSession with store := updateNode quietSession.store 2 turnUp }

def swapped : Outcome × Session :=
  mutate { patch := swapPatch } pendingSession

end Replaced

end GraphEngine.HotParameters
