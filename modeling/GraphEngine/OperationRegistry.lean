import GraphEngine.OrderedMaps
import GraphEngine.Runs
import GraphEngine.Values
import Mathlib.Data.List.DropRight
import Mathlib.Data.List.Nodup

/-!
The operation registry (operation.cpp). Every call is one section under the mutex; the terminal hook
runs after it, as a step of its own, with the record as it was. The engine installs the hook before
there is any operation. A call of `Wait` reads only, and one that times out sees nothing.
-/

namespace GraphEngine.OperationRegistry

open Values OrderedMaps Runs List Function Option

inductive OperationState where
  | accepted | running | succeeded | failed | cancelled
  deriving DecidableEq

def OperationState.terminal : OperationState → Bool
  | .accepted | .running => false
  | .succeeded | .failed | .cancelled => true

structure CallerContext where
  callerId : String := ""
  requestId : String := ""
  deriving DecidableEq

/-- A result without status is OK. -/
structure OperationRecord where
  id : Nat
  kind : String
  sessionId : Nat
  state : OperationState := .accepted
  result : Option Status := none
  topologyVersion : Option Nat := none
  parameterVersion : Option Nat := none
  caller : CallerContext := {}
  detail : JsonValue := .object []
  createdNs : Int
  finishedNs : Int := 0
  deriving DecidableEq

inductive Ending where
  | succeed (topologyVersion parameterVersion : Option Nat) (detail : JsonValue)
  | fail (status : Status) (detail : JsonValue)
  | cancel (reason : String)
  deriving DecidableEq

namespace Ending

def state : Ending → OperationState
  | .succeed .. => .succeeded
  | .fail .. => .failed
  | .cancel _ => .cancelled

def result : Ending → Option Status
  | .succeed .. => none
  | .fail status _ => some status
  | .cancel reason => some (Status.cancelled reason)

def detail : Ending → JsonValue
  | .succeed _ _ detail | .fail _ detail => detail
  | .cancel _ => .null

def topologyVersion : Ending → Option Nat
  | .succeed version .. => version
  | _ => none

def parameterVersion : Ending → Option Nat
  | .succeed _ version _ => version
  | _ => none

end Ending

def OperationRecord.finish (record : OperationRecord) (ending : Ending) (now : Int) :
    OperationRecord :=
  { record with
    state := ending.state
    result := ending.result
    topologyVersion := ending.topologyVersion <|> record.topologyVersion
    parameterVersion := ending.parameterVersion <|> record.parameterVersion
    detail := if ending.detail.isObject then
        .object (assignAll ending.detail.asObject record.detail.asObject)
      else record.detail
    finishedNs := now }

/-- `hooks` has the calls of the hook that are still to be made, `hooked` those made. `finished`
keeps every operation that was finished, in their order. -/
structure Registry where
  records : Nat → Option OperationRecord := fun _ => none
  terminalOrder : List Nat := []
  nextId : Nat := 1
  hooks : List OperationRecord := []
  hooked : List OperationRecord := []
  finished : List OperationRecord := []

namespace Registry

def set (registry : Registry) (id : Nat) (record : OperationRecord) : Registry :=
  { registry with records := update registry.records id (some record) }

def create (registry : Registry) (kind : String) (session : Nat) (caller : CallerContext)
    (detail : JsonValue) (now : Int) : Registry :=
  { registry.set registry.nextId {
      id := registry.nextId
      kind := kind
      sessionId := session
      caller := caller
      detail := .object detail.asObject
      createdNs := now } with
    nextId := registry.nextId + 1 }

/-- The section of `Finish` for a record that is not terminal. The loop erases the oldest terminal
records until `retain` are left. -/
def finish (registry : Registry) (retain : Nat) (record : OperationRecord) : Registry :=
  let order := registry.terminalOrder ++ [record.id]
  { registry with
    records := fun id =>
      if id ∈ order.rdrop retain then none
      else update registry.records record.id (some record) id
    terminalOrder := order.rtake retain
    hooks := registry.hooks ++ [record]
    finished := registry.finished ++ [record] }

end Registry

inductive Action where
  | create (kind : String) (session : Nat) (caller : CallerContext) (detail : JsonValue) (now : Int)
  | setRunning (id : Nat)
  | setTopologyVersion (id version : Nat)
  | finish (id : Nat) (ending : Ending) (now : Int)
  | wait (id : Nat)
  | hook (record : OperationRecord)

/-- At least one terminal record is kept. -/
def act (retainTerminal : Nat) (registry : Registry) : Action → Option Registry
  | .create kind session caller detail now => some (registry.create kind session caller detail now)
  | .setRunning id =>
    some ((registry.records id).elim registry fun record =>
      if record.state.terminal then registry else registry.set id { record with state := .running })
  | .setTopologyVersion id version =>
    some ((registry.records id).elim registry fun record =>
      registry.set id { record with topologyVersion := some version })
  | .finish id ending now =>
    some ((registry.records id).elim registry fun record =>
      if record.state.terminal then registry
      else registry.finish (max 1 retainTerminal) (record.finish ending now))
  | .wait id => if (registry.records id).all (·.state.terminal) then some registry else none
  | .hook record =>
    if record ∈ registry.hooks then
      some { registry with
        hooks := registry.hooks.erase record, hooked := registry.hooked ++ [record] }
    else none

variable {retainTerminal : Nat}

section Property

/-- What never changes once an operation is finished. -/
def Frozen (old new : OperationRecord) : Prop :=
  new.state = old.state ∧ new.result = old.result ∧ new.detail = old.detail ∧
    new.finishedNs = old.finishedNs

/-- An operation goes on to running or comes to its end, and stays there. -/
def Forward (old new : OperationRecord) : Prop :=
  (old.state.terminal = true → Frozen old new) ∧
    (new.state = old.state ∨ old.state = .accepted ∧ new.state = .running ∨
      old.state.terminal = false ∧ new.state.terminal = true)

def ended (registry : Registry) : List Nat := registry.finished.map OperationRecord.id

structure InStep (retain : Nat) (registry : Registry) : Prop where
  -- No operation that is not finished is evicted.
  standing : ∀ id, 1 ≤ id → id < registry.nextId → id ∉ ended registry →
    ∃ record, registry.records id = some record ∧ record.state.terminal = false
  retained : ∀ id, (∃ record, registry.records id = some record ∧ record.state.terminal = true) ↔
    id ∈ (ended registry).rtake retain
  frozen : ∀ old ∈ registry.finished, old.state.terminal = true ∧
    ∀ new, registry.records old.id = some new → Frozen old new
  once : (ended registry).Nodup
  hooks : (registry.hooked ++ registry.hooks).Perm registry.finished

structure Sound (retain : Nat) (registry : Registry) : Prop extends InStep retain registry where
  known : ∀ id record, registry.records id = some record → record.id = id ∧ id < registry.nextId
  past : ∀ id ∈ ended registry, id < registry.nextId
  unfinished : ∀ id record, registry.records id = some record → record.state.terminal = false →
    id ∉ ended registry
  order : registry.terminalOrder = (ended registry).rtake retain

variable {retain : Nat} {registry : Registry} {id : Nat} {record next : OperationRecord}

theorem update_found {Key Value : Type} [DecidableEq Key] {table : Key → Option Value}
    {key other : Key} {value held : Value}
    (found : update table key (some value) other = some held) :
    other = key ∧ held = value ∨ other ≠ key ∧ table other = some held := by
  rcases eq_or_ne other key with rfl | apart
  · rw [update_self, some.injEq] at found
    exact .inl ⟨rfl, found.symm⟩
  · rw [update_of_ne apart] at found
    exact .inr ⟨apart, found⟩

theorem Sound.set (sound : Sound retain registry) (found : registry.records id = some record)
    (same : next.id = record.id) (ends : next.state.terminal = record.state.terminal)
    (frozen : record.state.terminal = true → Frozen record next) :
    Sound retain (registry.set id next) := by
  have others : ∀ other ≠ id, (registry.set id next).records other = registry.records other :=
    fun other apart => update_of_ne apart _ _
  have here : (registry.set id next).records id = some next := update_self _ _ _
  refine ⟨⟨?_, ?_, ?_, sound.once, sound.hooks⟩, ?_, sound.past, ?_, sound.order⟩
  · intro other first made fresh
    rcases eq_or_ne other id with rfl | apart
    · obtain ⟨_, listed, running⟩ := sound.standing other first made fresh
      cases found.symm.trans listed
      exact ⟨next, here, ends.trans running⟩
    · rw [others other apart]
      exact sound.standing other first made fresh
  · intro other
    rw [show ended (registry.set id next) = ended registry from rfl, ← sound.retained]
    rcases eq_or_ne other id with rfl | apart
    · simp [here, found, ends]
    · rw [others other apart]
  · intro old listed
    refine ⟨(sound.frozen old listed).1, fun new held => ?_⟩
    rcases update_found held with ⟨rfl, rfl⟩ | ⟨-, before⟩
    · have kept := (sound.frozen old listed).2 record found
      have changed := frozen (kept.1 ▸ (sound.frozen old listed).1)
      exact ⟨changed.1.trans kept.1, changed.2.1.trans kept.2.1, changed.2.2.1.trans kept.2.2.1,
        changed.2.2.2.trans kept.2.2.2⟩
    · exact (sound.frozen old listed).2 new before
  · intro other held listed
    rcases update_found listed with ⟨rfl, rfl⟩ | ⟨-, before⟩
    · exact same ▸ sound.known _ record found
    · exact sound.known other held before
  · intro other held listed running
    rcases update_found listed with ⟨rfl, rfl⟩ | ⟨-, before⟩
    · exact sound.unfinished _ record found (ends ▸ running)
    · exact sound.unfinished other held before running

theorem Sound.create (sound : Sound retain registry) (kind : String) (session : Nat)
    (caller : CallerContext) (detail : JsonValue) (now : Int) :
    Sound retain (registry.create kind session caller detail now) := by
  have fresh : registry.nextId ∉ ended registry := fun old => lt_irrefl _ (sound.past _ old)
  have others : ∀ other ≠ registry.nextId,
      (registry.create kind session caller detail now).records other = registry.records other :=
    fun other apart => update_of_ne apart _ _
  refine ⟨⟨?_, ?_, ?_, sound.once, sound.hooks⟩, ?_, ?_, ?_, sound.order⟩
  · intro id first made unfinished
    rcases Nat.lt_succ_iff_lt_or_eq.mp made with before | rfl
    · rw [others id before.ne]
      exact sound.standing id first before unfinished
    · exact ⟨_, update_self _ _ _, rfl⟩
  · intro id
    refine Iff.trans ?_ (sound.retained id)
    rcases eq_or_ne id registry.nextId with rfl | apart
    · refine iff_of_false ?_ fun ⟨record, found, _⟩ => lt_irrefl _ (sound.known _ _ found).2
      rintro ⟨record, found, ends⟩
      rcases update_found found with ⟨-, rfl⟩ | ⟨other, -⟩
      · cases ends
      · exact other rfl
    · rw [others id apart]
  · intro old listed
    have apart : old.id ≠ registry.nextId := (sound.past _ (mem_map_of_mem listed)).ne
    rw [others old.id apart]
    exact sound.frozen old listed
  · intro id record found
    rcases update_found found with ⟨rfl, rfl⟩ | ⟨-, before⟩
    · exact ⟨rfl, Nat.lt_succ_self _⟩
    · exact (sound.known id record before).imp_right Nat.lt_succ_of_lt
  · exact fun id old => Nat.lt_succ_of_lt (sound.past id old)
  · intro id record found running
    rcases update_found found with ⟨rfl, -⟩ | ⟨-, before⟩
    · exact fresh
    · exact sound.unfinished id record before running

/-- Keeping the last of the kept ones and a new one keeps the last of them all. -/
theorem rtake_snoc (ids : List Nat) (id : Nat) :
    (ids.rtake retain ++ [id]).rtake retain = (ids ++ [id]).rtake retain := by
  simp only [rtake, ← drop_append_of_le_length (Nat.sub_le ids.length retain),
    drop_drop, length_drop, length_append]
  congr 1
  omega

theorem Sound.finish (sound : Sound retain registry) (positive : 1 ≤ retain)
    (found : registry.records next.id = some record) (running : record.state.terminal = false)
    (ends : next.state.terminal = true) : Sound retain (registry.finish retain next) := by
  have fresh := sound.unfinished _ _ found running
  let order := (ended registry).rtake retain ++ [next.id]
  have named : ended (registry.finish retain next) = ended registry ++ [next.id] := map_append
  have listed : (registry.finish retain next).terminalOrder = order.rtake retain := by
    simp only [Registry.finish, sound.order, order]
  have once : (ended registry ++ [next.id]).Nodup :=
    nodup_append_comm.mp (nodup_cons.mpr ⟨fresh, sound.once⟩)
  have apart : order.Nodup := once.sublist ((drop_sublist _ _).append (List.Sublist.refl _))
  have parts : order.rdrop retain ++ order.rtake retain = order := take_append_drop _ _
  rw [← parts, nodup_append'] at apart
  -- At least one is kept, so the one that ends now stays.
  have evicted : ∀ id ∈ order.rdrop retain, id ∈ ended registry := by
    intro id gone
    have early : order.length - retain ≤ ((ended registry).rtake retain).length := by
      simp only [order, length_append, length_singleton]
      omega
    rw [rdrop, take_append_of_le_length early] at gone
    exact mem_of_mem_drop (mem_of_mem_take gone)
  have stays : ∀ id, id ∉ order.rdrop retain → (registry.finish retain next).records id =
      update registry.records next.id (some next) id := by
    intro id kept
    simp only [Registry.finish, sound.order]
    exact if_neg kept
  have old : ∀ id new, (registry.finish retain next).records id = some new →
      id ∉ order.rdrop retain ∧ (id = next.id ∧ new = next ∨
        id ≠ next.id ∧ registry.records id = some new) := by
    intro id new held
    simp only [Registry.finish, sound.order, ite_none_left_eq_some] at held
    exact ⟨held.1, update_found held.2⟩
  refine ⟨⟨?_, ?_, ?_, named ▸ once, ?_⟩, ?_, ?_, ?_, ?_⟩
  · intro id first made unfinished
    rw [named, mem_append, mem_singleton, not_or] at unfinished
    rw [stays id fun gone => unfinished.1 (evicted id gone), update_of_ne unfinished.2]
    exact sound.standing id first made unfinished.1
  · intro id
    rw [named, ← rtake_snoc]
    constructor
    · rintro ⟨new, held, over_⟩
      obtain ⟨kept, here⟩ := old id new held
      have inside : id ∈ order := by
        rcases here with ⟨rfl, -⟩ | ⟨-, before⟩
        · exact mem_append_right _ (mem_singleton_self _)
        · exact mem_append_left _ ((sound.retained id).mp ⟨new, before, over_⟩)
      rw [← parts, mem_append] at inside
      exact inside.resolve_left kept
    · intro kept
      rw [stays id fun gone => apart.2.2 gone kept]
      rcases eq_or_ne id next.id with rfl | other
      · exact ⟨next, update_self _ _ _, ends⟩
      · rw [update_of_ne other]
        refine (sound.retained id).mpr ((mem_append.mp (mem_of_mem_drop kept)).resolve_right ?_)
        exact fun last => other (mem_singleton.mp last)
  · intro past member
    rcases mem_append.mp member with before | last
    · refine ⟨(sound.frozen past before).1, fun new held => ?_⟩
      rcases (old _ new held).2 with ⟨same, -⟩ | ⟨-, kept⟩
      · exact absurd (mem_map_of_mem before) (same ▸ fresh)
      · exact (sound.frozen past before).2 new kept
    · cases mem_singleton.mp last
      refine ⟨ends, fun new held => ?_⟩
      rcases (old _ new held).2 with ⟨-, rfl⟩ | ⟨different, -⟩
      · exact ⟨rfl, rfl, rfl, rfl⟩
      · exact absurd rfl different
  · rw [Registry.finish, ← append_assoc]
    exact sound.hooks.append_right _
  · intro id new held
    rcases (old id new held).2 with ⟨rfl, rfl⟩ | ⟨-, kept⟩
    · exact ⟨rfl, (sound.known _ _ found).2⟩
    · exact sound.known id new kept
  · rw [named]
    refine forall_mem_append.mpr ⟨sound.past, forall_mem_singleton.mpr ?_⟩
    exact (sound.known _ _ found).2
  · intro id new held unfinished
    rcases (old id new held).2 with ⟨-, rfl⟩ | ⟨other, kept⟩
    · rw [ends] at unfinished
      cases unfinished
    · rw [named, mem_append, mem_singleton, not_or]
      exact ⟨sound.unfinished id new kept unfinished, other⟩
  · rw [listed, named]
    exact rtake_snoc _ _

theorem Ending.terminal (ending : Ending) : ending.state.terminal = true := by
  cases ending <;> rfl

theorem sound_act (sound : Sound (max 1 retainTerminal) registry) {action : Action}
    {after : Registry} (done : act retainTerminal registry action = some after) :
    Sound (max 1 retainTerminal) after := by
  cases action with
  | create kind session caller detail now =>
    cases done
    exact sound.create kind session caller detail now
  | setRunning id =>
    cases done
    cases found : registry.records id with
    | none => exact sound
    | some record =>
      rw [elim_some]
      split_ifs with over_
      · exact sound
      · have running := Bool.eq_false_iff.mpr over_
        exact sound.set found rfl running.symm fun ends => absurd ends over_
  | setTopologyVersion id version =>
    cases done
    cases found : registry.records id with
    | none => exact sound
    | some record => exact sound.set found rfl rfl fun _ => ⟨rfl, rfl, rfl, rfl⟩
  | finish id ending now =>
    cases done
    cases found : registry.records id with
    | none => exact sound
    | some record =>
      rw [elim_some]
      split_ifs with over_
      · exact sound
      have here : registry.records record.id = some record :=
        (sound.known id record found).1.symm ▸ found
      exact sound.finish (le_max_left _ _) here (Bool.eq_false_iff.mpr over_) ending.terminal
  | wait id =>
    obtain ⟨-, same⟩ := ite_none_right_eq_some.mp done
    cases same
    exact sound
  | hook record =>
    obtain ⟨waits, same⟩ := ite_none_right_eq_some.mp done
    cases same
    refine { sound with hooks := List.Perm.trans ?_ sound.hooks }
    rw [append_assoc]
    exact (perm_cons_erase waits).symm.append_left _

theorem forward_act {action : Action} {after : Registry}
    (sound : Sound (max 1 retainTerminal) registry)
    (done : act retainTerminal registry action = some after) {old new : OperationRecord}
    (before : registry.records id = some old) (held : after.records id = some new) :
    Forward old new := by
  have still : ∀ {record}, registry.records id = some record → Forward old record := by
    intro record again
    cases before.symm.trans again
    exact ⟨fun _ => ⟨rfl, rfl, rfl, rfl⟩, .inl rfl⟩
  cases action with
  | create kind session caller detail now =>
    cases done
    rcases update_found held with ⟨rfl, -⟩ | ⟨-, kept⟩
    · exact absurd (sound.known _ _ before).2 (lt_irrefl _)
    · exact still kept
  | setRunning other =>
    cases done
    cases found : registry.records other with
    | none => exact still (by simpa [found] using held)
    | some record =>
      rw [found, elim_some] at held
      split_ifs at held with over_
      · exact still held
      rcases update_found held with ⟨rfl, rfl⟩ | ⟨-, kept⟩
      · cases found.symm.trans before
        refine ⟨fun ends => absurd ends over_, ?_⟩
        cases state : old.state <;> simp_all [OperationState.terminal]
      · exact still kept
  | setTopologyVersion other version =>
    cases done
    cases found : registry.records other with
    | none => exact still (by simpa [found] using held)
    | some record =>
      rw [found] at held
      rcases update_found held with ⟨rfl, rfl⟩ | ⟨-, kept⟩
      · cases found.symm.trans before
        exact ⟨fun _ => ⟨rfl, rfl, rfl, rfl⟩, .inl rfl⟩
      · exact still kept
  | finish other ending now =>
    cases done
    cases found : registry.records other with
    | none => exact still (by simpa [found] using held)
    | some record =>
      rw [found, elim_some] at held
      split_ifs at held with over_
      · exact still held
      rcases update_found (ite_none_left_eq_some.mp held).2 with ⟨rfl, rfl⟩ | ⟨-, kept⟩
      · have here := (sound.known other record found).1
        cases found.symm.trans (here ▸ before)
        exact ⟨fun ends => absurd ends over_,
          Or.inr (.inr ⟨Bool.eq_false_iff.mpr over_, ending.terminal⟩)⟩
      · exact still kept
  | wait other | hook record =>
    obtain ⟨-, same⟩ := ite_none_right_eq_some.mp done
    cases same
    exact still held

end Property

abbrev Run (retainTerminal : Nat) : Registry → Prop :=
  Reachable (· = {}) (Acts (act retainTerminal) fun _ _ => True)

/-- Operations only move forward, to running or to one end at which they stay; the hook runs once
for every finished one; no other is evicted, and of those the last ones are kept. -/
theorem operations_in_step (retainTerminal : Nat) {registry : Registry}
    (reached : Run retainTerminal registry) : InStep (max 1 retainTerminal) registry ∧
      ∀ action after, act retainTerminal registry action = some after →
        ∀ id old new, registry.records id = some old → after.records id = some new →
          Forward old new := by
  have sound : Sound (max 1 retainTerminal) registry := by
    refine reachable_invariant (Sound (max 1 retainTerminal)) ?_ ?_ reached
    · rintro _ rfl
      refine ⟨⟨fun id first made => ?_, fun id => ?_, ?_, nodup_nil, .nil⟩, ?_, ?_, ?_,
        drop_nil.symm⟩
      · exact absurd first (Nat.not_le.mpr made)
      · exact iff_of_false (fun ⟨_, found, _⟩ => nomatch found)
          fun kept => not_mem_nil (mem_of_mem_drop kept)
      · exact fun _ member => absurd member not_mem_nil
      · exact fun _ _ found => nomatch found
      · exact fun _ member => absurd member not_mem_nil
      · exact fun _ _ found => nomatch found
    · rintro before after _ sound ⟨action, -, done⟩
      exact sound_act sound done
  exact ⟨sound.toInStep, fun _ _ done _ _ _ => forward_act sound done⟩

def twoOperations : List Action :=
  [.create "mutation.apply" 1 {} .null 5, .create "session.stop" 1 {} .null 6, .setRunning 1,
    .finish 1 (.succeed (some 2) none .null) 7, .finish 2 (.cancel "session destroyed") 8]

def glance (registry : Registry) : List (Nat × OperationState) × List Nat :=
  ([1, 2].filterMap fun id => (registry.records id).map fun record => (id, record.state),
    registry.hooks.map OperationRecord.id)

theorem two_operations_in_step :
    ∃ registry, Run 0 registry ∧ glance registry = ([(2, .cancelled)], [1, 2]) ∧
      InStep 1 registry ∧ ∀ action after, act 0 registry action = some after →
        ∀ id old new, registry.records id = some old → after.records id = some new →
          Forward old new := by
  have seen : (play (act 0) (fun _ _ => True) {} twoOperations).map glance =
      some ([(2, .cancelled)], [1, 2]) := by decide +kernel
  obtain ⟨registry, reached, look⟩ := reachable_seen seen
  exact ⟨registry, reached, look, operations_in_step 0 reached⟩

/-- An operation is cancelled before it was ever running, and is kept although no
terminal records are to be retained. -/
theorem cancelled_from_accepted :
    ∃ registry, Run 0 registry ∧ glance registry = ([(1, .accepted)], []) ∧
      (act 0 registry (.finish 1 (.cancel "session destroyed") 2)).map glance =
        some ([(1, .cancelled)], [1]) := by
  refine ⟨_, .next (.initial rfl) ⟨.create "mutation.apply" 1 {} .null 1, trivial, rfl⟩, ?_, ?_⟩
  · decide +kernel
  · decide +kernel

end GraphEngine.OperationRegistry
