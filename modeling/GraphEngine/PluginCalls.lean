import GraphEngine.PluginRuns

/-!
Calls into plugin libraries, after plugin_operator.cpp. Plugin code is entered through the
vtable of an operator, which holds a lease, and through the release callback of a buffer the
plugin wrapped, which holds none. A buffer lives as long as somebody holds it: the plugin, or
a packet wherever it travels.
-/

namespace GraphEngine.PluginCalls

open Values PluginRegistry PluginRuns Runs List Option

inductive Function where
  | create | opening | process | submit | close | destroy | bufferRelease
  deriving DecidableEq

/-- A `PluginOperator` from the moment its lease exists. -/
inductive Phase where
  | acquired | constructing | made | failed | destroyed
  deriving DecidableEq

structure Instance where
  lease : PluginReference
  phase : Phase := .acquired
  opened : Bool := false
  closed : Bool := false
  running : Nat := 0
  deriving DecidableEq

inductive Holder where
  | plugin
  | packet (id : Nat)
  deriving DecidableEq

/-- A buffer of `buffer_wrap`; the release callback may be null. -/
structure Wrapped where
  plugin : PluginId
  callback : Bool
  holders : List Holder
  deriving DecidableEq

/-- A call into a plugin, and whether `PhysicalUnload` had returned OK for it before. -/
structure Entry where
  plugin : PluginId
  function : Function
  late : Bool
  deriving DecidableEq

/-- The registry, the operators and buffers alive, the plugins `PhysicalUnload` returned OK for,
and every call made so far. -/
structure World where
  registry : System
  instances : List Instance := []
  buffers : List Wrapped := []
  unloaded : List PluginId := []
  calls : List Entry := []

namespace World

variable (world : World)

def enter (plugin : PluginId) (function : Function) : World :=
  { world with
    calls := world.calls ++ [⟨plugin, function, world.unloaded.contains plugin⟩] }

def setInstance (index : Nat) (operator : Instance) : World :=
  { world with instances := world.instances.set index operator }

end World

inductive Action where
  | load (manifestPath : String) (validated : Except (String × Status) Loaded)
  | retire (id : PluginId)
  | logicalUnload (id : PluginId)
  | physicalUnload (id : PluginId)
  | acquire (args : OperatorCreateArgs)
  | construct (index : Nat)
  | constructed (index : Nat) (ok : Bool)
  | begin (index : Nat) (function : Function)
  | finish (index : Nat) (function : Function) (ok : Bool)
  | destroy (index : Nat)
  | leave (index : Nat)
  | wrap (index : Nat) (callback : Bool)
  | share (buffer : Nat) (holder : Holder)
  | drop (buffer : Nat) (holder : Holder)

/-- A call of the registry that involves no operator and closes no library. -/
def control (threadProbe : Option (PluginInfo → Bool)) (world : World) (call : Call) :
    Option World := do
  let (registry, _) ← perform threadProbe world.registry call
  return { world with registry }

/-- The entries that `Open`, `Process`, `Submit` and `Close` call. -/
def callable : Function → Bool
  | .opening | .process | .submit | .close => true
  | _ => false

def act (threadProbe : Option (PluginInfo → Bool)) (world : World) : Action → Option World
  | .load manifestPath validated => control threadProbe world (.load manifestPath validated)
  | .retire id => control threadProbe world (.retire id)
  | .logicalUnload id => control threadProbe world (.logicalUnload id)
  | .physicalUnload id =>
    let (state, result) := world.registry.state.physicalUnload threadProbe id
    some { world with
      registry := ⟨state, world.registry.leases⟩
      unloaded := if result.isOk then id :: world.unloaded else world.unloaded }
  -- the locked part of `Create`
  | .acquire args => do
      let (registry, outcome) ← perform threadProbe world.registry (.create args (.ok ()))
      match outcome with
      | .created (.ok grant) =>
        return { world with registry, instances := world.instances ++ [{ lease := grant.lease }] }
      | _ => return { world with registry }
  -- the plugin's own `create` runs outside the lock
  | .construct index => do
      let operator ← world.instances[index]?
      if operator.phase ≠ .acquired then none
      else
        return (world.enter operator.lease.pluginId .create).setInstance index
          { operator with phase := .constructing }
  | .constructed index ok => do
      let operator ← world.instances[index]?
      -- a vtable without its mandatory entries fails before `create` is called
      if operator.phase = .constructing ∨ operator.phase = .acquired ∧ ok = false then
        return world.setInstance index { operator with phase := if ok then .made else .failed }
      else none
  | .begin index function => do
      let operator ← world.instances[index]?
      if operator.phase = .made ∧ callable function = true then
        return (world.enter operator.lease.pluginId function).setInstance index
          { operator with
            running := operator.running + 1
            closed := operator.closed || function = .close }
      else none
  | .finish index function ok => do
      let operator ← world.instances[index]?
      if operator.phase = .made ∧ 0 < operator.running then
        return world.setInstance index
          { operator with
            running := operator.running - 1
            opened := operator.opened || (function = .opening && ok) }
      else none
  -- `~PluginOperator`: close if it is still open, destroy
  | .destroy index => do
      let operator ← world.instances[index]?
      if operator.phase = .made ∧ operator.running = 0 then
        let closing := if operator.opened && !operator.closed then
          world.enter operator.lease.pluginId .close else world
        return (closing.enter operator.lease.pluginId .destroy).setInstance index
          { operator with phase := .destroyed }
      else none
  -- the lease is the last member to go
  | .leave index => do
      let operator ← world.instances[index]?
      if operator.phase = .destroyed ∨ operator.phase = .failed then
        let (registry, _) ← perform threadProbe world.registry (.release operator.lease)
        return { world with registry, instances := world.instances.eraseIdx index }
      else none
  | .wrap index callback => do
      let operator ← world.instances[index]?
      return { world with
        buffers := world.buffers ++ [⟨operator.lease.pluginId, callback, [.plugin]⟩] }
  | .share buffer holder => do
      let wrapped ← world.buffers[buffer]?
      return { world with
        buffers := world.buffers.set buffer { wrapped with holders := holder :: wrapped.holders } }
  -- the last reference runs `WrapDeleter`
  | .drop buffer holder => do
      let wrapped ← world.buffers[buffer]?
      if holder ∉ wrapped.holders then none
      else if wrapped.holders.erase holder ≠ [] then
        return { world with
          buffers := world.buffers.set buffer
            { wrapped with holders := wrapped.holders.erase holder } }
      else
        let released := { world with buffers := world.buffers.eraseIdx buffer }
        return if wrapped.callback then released.enter wrapped.plugin .bufferRelease else released

def Begun (world : World) : Prop :=
  Fresh world.registry ∧ world.instances = [] ∧ world.buffers = [] ∧ world.unloaded = [] ∧
    world.calls = []

def WorldStep (threadProbe : Option (PluginInfo → Bool)) (before after : World) : Prop :=
  ∃ action, act threadProbe before action = some after

/-- Counters have room, and a library is closed only when no buffer with a callback into it is
left. -/
def Careful (world : World) : Action → Prop
  | .acquire args => Roomy world.registry (.create args (.ok ()))
  | .physicalUnload id => ∀ plugin ∈ world.registry.state.find id,
      plugin.state = .logicallyUnloaded →
        ∀ buffer ∈ world.buffers, buffer.plugin = id → buffer.callback = false
  | _ => True

instance (world : World) (action : Action) : Decidable (Careful world action) := by
  cases action <;> unfold Careful <;> infer_instance

def CarefulStep (threadProbe : Option (PluginInfo → Bool)) (before after : World) : Prop :=
  ∃ action, Careful before action ∧ act threadProbe before action = some after

/-- No plugin function was entered after `PhysicalUnload` had returned OK for the plugin. -/
def NoLateCall (world : World) : Prop := ∀ entry ∈ world.calls, entry.late = false

variable {args : OperatorCreateArgs}

section Closing

variable {plugins : List Plugin} {id : PluginId}

def Closed (plugins : List Plugin) (id : PluginId) : Prop :=
  ∃ plugin ∈ plugins, plugin.id = id ∧ plugin.state = .physicallyUnloaded

theorem closed_replaced {old next : Plugin} (distinct : (plugins.map Plugin.id).Nodup)
    (member : old ∈ plugins) (same : next.id = old.id)
    (still : next.state = .physicallyUnloaded ↔ old.state = .physicallyUnloaded) :
    Closed (replaced next plugins) id ↔ Closed plugins id := by
  constructor
  · rintro ⟨plugin, inside, found, gone⟩
    rcases (mem_replaced member same).mp inside with rfl | ⟨plainly, _⟩
    · exact ⟨old, member, same.symm.trans found, still.mp gone⟩
    · exact ⟨plugin, plainly, found, gone⟩
  · rintro ⟨plugin, inside, found, gone⟩
    by_cases hit : plugin.id = next.id
    · have isOld : plugin = old := inj_on_of_nodup_map distinct inside member (hit.trans same)
      subst isOld
      exact ⟨next, next_mem_replaced inside same, same.trans found, still.mpr gone⟩
    · exact ⟨plugin, (mem_replaced member same).mpr (.inr ⟨inside, hit⟩), found, gone⟩

variable {room : Prop} {before after : System}

theorem closed_quiet (quiet : Quiet room before after)
    (distinct : (before.state.plugins.map Plugin.id).Nodup) :
    Closed after.state.plugins id ↔ Closed before.state.plugins id := by
  cases quiet with
  | audited audit => exact Iff.rfl
  | retiring audit member opened | referenced audit member opened owner roomy =>
    exact closed_replaced distinct member rfl (by rcases opened with open_ | open_ <;> simp [open_])
  | released audit member owner held => exact closed_replaced distinct member rfl Iff.rfl

theorem closed_loud (loud : Loud before after)
    (distinct : (before.state.plugins.map Plugin.id).Nodup) :
    Closed after.state.plugins id ↔ Closed before.state.plugins id := by
  cases loud with
  | registered audit free =>
    constructor
    · rintro ⟨plugin, member, same, gone⟩
      rcases mem_append.mp member with old | new
      · exact ⟨plugin, old, same, gone⟩
      · rw [mem_singleton.mp new] at gone
        cases gone
    · rintro ⟨plugin, member, found⟩
      exact ⟨plugin, mem_append_left _ member, found⟩
  | unloaded member live zero =>
    obtain ⟨audit, result⟩ := unload_eq _ _
    rw [result]
    refine closed_replaced distinct member rfl (iff_of_false nofun ?_)
    intro gone
    simp [Plugin.live, gone] at live

theorem closed_edits (edits : Edits room before after)
    (distinct : (before.state.plugins.map Plugin.id).Nodup) :
    Closed after.state.plugins id ↔ Closed before.state.plugins id := by
  obtain ⟨middle, quiets, last⟩ := edits
  have settled : (middle.state.plugins.map Plugin.id).Nodup ∧
      (Closed middle.state.plugins id ↔ Closed before.state.plugins id) := by
    clear last
    induction quiets with
    | refl => exact ⟨distinct, Iff.rfl⟩
    | tail _ quiet ih =>
      exact ⟨quiet_ids quiet ▸ ih.1, (closed_quiet quiet ih.1).trans ih.2⟩
  rcases last with rfl | loud
  · exact settled.2
  · exact (closed_loud loud settled.1).trans settled.2

end Closing

section Invariant

variable {threadProbe : Option (PluginInfo → Bool)} {world after : World}

/-- Every operator holds its lease; the libraries unloaded are closed, those that a buffer can
call back are not. -/
structure Guarded (world : World) : Prop where
  sound : SoundState world.registry.state world.registry.leases
  leases : (world.instances.map Instance.lease).Perm world.registry.leases
  unloaded : ∀ id ∈ world.unloaded, Closed world.registry.state.plugins id
  buffers : ∀ buffer ∈ world.buffers, buffer.callback = true →
    ¬Closed world.registry.state.plugins buffer.plugin
  calls : NoLateCall world

variable (guarded : Guarded world)
include guarded

theorem Guarded.operator {operator : Instance} (member : operator ∈ world.instances) :
    ¬Closed world.registry.state.plugins operator.lease.pluginId := by
  have held : operator.lease ∈ world.registry.leases :=
    guarded.leases.mem_iff.mp (mem_map_of_mem member)
  obtain ⟨plugin, inside, same, live⟩ := guarded.sound.leased held
  rintro ⟨other, otherIn, otherSame, gone⟩
  rw [guarded.sound.unique inside otherIn (same.trans otherSame.symm)] at live
  simp [Plugin.live, gone] at live

theorem Guarded.enter {plugin : PluginId} (function : Function)
    (opened : ¬Closed world.registry.state.plugins plugin) :
    Guarded (world.enter plugin function) := by
  refine { guarded with
    calls := forall_mem_append.mpr ⟨guarded.calls, forall_mem_singleton.mpr ?_⟩ }
  simp only [contains_eq_mem, decide_eq_false_iff_not]
  exact fun listed => opened (guarded.unloaded plugin listed)

theorem Guarded.setInstance {index : Nat} {old next : Instance}
    (found : world.instances[index]? = some old) (same : next.lease = old.lease) :
    Guarded (world.setInstance index next) := by
  have unchanged : (world.instances.set index next).map Instance.lease =
      world.instances.map Instance.lease := by
    obtain ⟨bound, rfl⟩ := List.getElem?_eq_some_iff.mp found
    rw [map_set, same, ← getElem_map Instance.lease]
    · exact set_getElem_self _
    · simpa using bound
  refine { guarded with leases := ?_ }
  rw [World.setInstance, unchanged]
  exact guarded.leases

theorem Guarded.setBuffers {buffers : List Wrapped}
    (known : ∀ buffer ∈ buffers, buffer.callback = true →
      ¬Closed world.registry.state.plugins buffer.plugin) : Guarded { world with buffers } :=
  { guarded with buffers := known }

theorem Guarded.edited {registry : System} {instances : List Instance} {room : Prop}
    (edits : Edits room world.registry registry) (enough : room)
    (leases : (instances.map Instance.lease).Perm registry.leases) :
    Guarded { world with registry, instances } where
  sound := sound_edits enough edits guarded.sound
  leases := leases
  unloaded := fun id listed =>
    (closed_edits edits guarded.sound.distinct).mpr (guarded.unloaded id listed)
  buffers := fun buffer member callback closed =>
    guarded.buffers buffer member callback ((closed_edits edits guarded.sound.distinct).mp closed)
  calls := guarded.calls

theorem guarded_physicalUnload {id : PluginId} (careful : Careful world (.physicalUnload id))
    (ran : act threadProbe world (.physicalUnload id) = some after) : Guarded after := by
  simp only [act, Option.some.injEq] at ran
  subst ran
  rcases physicalUnload_cases world.registry.state threadProbe id with
    ⟨audit, same, done⟩ | ⟨plugin, audit, found, gone, same⟩
  · rw [same]
    refine ⟨guarded.sound, guarded.leases, ?_, guarded.buffers, guarded.calls⟩
    intro other listed
    split at listed
    · next ok =>
      rcases mem_cons.mp listed with rfl | old
      · exact done ok
      · exact guarded.unloaded other old
    · exact guarded.unloaded other listed
  · obtain ⟨member, rfl⟩ := find_mem found
    have shut : Shut world.registry _ := ⟨plugin, member, gone, audit, rfl⟩
    have sameId : Plugin.id { State.closed plugin with state := .physicallyUnloaded } = plugin.id := rfl
    rw [same]
    refine ⟨sound_shut shut guarded.sound, guarded.leases, ?_, ?_, guarded.calls⟩
    · intro other listed
      by_cases hit : other = plugin.id
      · exact ⟨_, next_mem_replaced member rfl, hit.symm, rfl⟩
      · have old : other ∈ world.unloaded := by
          split at listed
          · exact (mem_cons.mp listed).resolve_left hit
          · exact listed
        obtain ⟨closed, inside, found, shut⟩ := guarded.unloaded other old
        refine ⟨closed, (mem_replaced member sameId).mpr (.inr ⟨inside, ?_⟩), found, shut⟩
        exact fun clash => hit (found.symm.trans clash)
    · rintro buffer listed callback ⟨closed, inside, same, shut⟩
      rcases (mem_replaced member sameId).mp inside with rfl | ⟨plainly, _⟩
      · rw [careful plugin found gone buffer listed same.symm] at callback
        cases callback
      · exact guarded.buffers buffer listed callback ⟨closed, plainly, same, shut⟩

theorem guarded_acquire (roomy : Roomy world.registry (.create args (.ok ())))
    (ran : act threadProbe world (.acquire args) = some after) : Guarded after := by
  obtain ⟨⟨registry, outcome⟩, performed, ran⟩ := bind_eq_some_iff.mp ran
  simp only [perform] at performed
  split at performed
  · next created =>
    cases performed
    cases ran
    refine guarded.edited (create_edits created fun _ => roomy) trivial ?_
    rw [map_append]
    exact (perm_append_singleton _ _).trans (guarded.leases.cons _)
  · next created =>
    cases performed
    cases ran
    exact guarded.edited (create_edits created fun _ => roomy) trivial guarded.leases

theorem guarded_leave {index : Nat} (ran : act threadProbe world (.leave index) = some after) :
    Guarded after := by
  obtain ⟨operator, found, ran⟩ := bind_eq_some_iff.mp ran
  split at ran
  · obtain ⟨⟨registry, outcome⟩, performed, ran⟩ := bind_eq_some_iff.mp ran
    obtain ⟨held, same⟩ := ite_none_right_eq_some.mp performed
    cases same
    cases ran
    refine guarded.edited (release_edits held (guarded.sound.held _ held)) trivial ?_
    -- the operator at the index goes, and its lease with it
    obtain ⟨bound, same⟩ := List.getElem?_eq_some_iff.mp found
    have split : (world.instances.map Instance.lease).Perm
        (operator.lease :: (world.instances.eraseIdx index).map Instance.lease) := by
      have moved := (getElem_cons_eraseIdx_perm bound).symm.map Instance.lease
      rwa [same] at moved
    have rest := (split.symm.trans guarded.leases).erase operator.lease
    rwa [erase_cons_head] at rest
  · cases ran

theorem guarded_act {action : Action} (careful : Careful world action)
    (ran : act threadProbe world action = some after) : Guarded after := by
  cases action with
  | load manifestPath validated =>
    cases ran
    exact guarded.edited (load_edits manifestPath validated) trivial guarded.leases
  | retire id =>
    cases ran
    exact guarded.edited (retire_edits id) trivial guarded.leases
  | logicalUnload id =>
    cases ran
    exact guarded.edited (logicalUnload_edits id) trivial guarded.leases
  | physicalUnload id => exact guarded_physicalUnload guarded careful ran
  | acquire args => exact guarded_acquire guarded careful ran
  | leave index => exact guarded_leave guarded ran
  | construct index =>
    obtain ⟨operator, found, ran⟩ := bind_eq_some_iff.mp ran
    split at ran
    · cases ran
    cases ran
    have opened := guarded.operator (mem_of_getElem? found)
    exact (guarded.enter .create opened).setInstance found rfl
  | constructed index ok | finish index function ok =>
    obtain ⟨operator, found, ran⟩ := bind_eq_some_iff.mp ran
    split at ran
    · cases ran
      exact guarded.setInstance found rfl
    · cases ran
  | begin index function =>
    obtain ⟨operator, found, ran⟩ := bind_eq_some_iff.mp ran
    split at ran
    · cases ran
      have opened := guarded.operator (mem_of_getElem? found)
      exact (guarded.enter function opened).setInstance found rfl
    · cases ran
  | destroy index =>
    obtain ⟨operator, found, ran⟩ := bind_eq_some_iff.mp ran
    split at ran
    · cases ran
      have opened := guarded.operator (mem_of_getElem? found)
      by_cases still : operator.opened && !operator.closed
      · rw [if_pos still]
        exact ((guarded.enter .close opened).enter .destroy opened).setInstance found rfl
      · rw [if_neg still]
        exact (guarded.enter .destroy opened).setInstance found rfl
    · cases ran
  | wrap index callback =>
    obtain ⟨operator, found, ran⟩ := bind_eq_some_iff.mp ran
    cases ran
    apply guarded.setBuffers
    intro buffer member back
    rcases mem_append.mp member with old | new
    · exact guarded.buffers buffer old back
    · rw [mem_singleton.mp new]
      exact guarded.operator (mem_of_getElem? found)
  | share buffer holder =>
    obtain ⟨wrapped, found, ran⟩ := bind_eq_some_iff.mp ran
    cases ran
    apply guarded.setBuffers
    intro other member back
    rcases mem_or_eq_of_mem_set member with old | rfl
    · exact guarded.buffers other old back
    · exact guarded.buffers wrapped (mem_of_getElem? found) back
  | drop buffer holder =>
    obtain ⟨wrapped, found, ran⟩ := bind_eq_some_iff.mp ran
    have member := mem_of_getElem? found
    split at ran
    · cases ran
    split at ran
    · cases ran
      apply guarded.setBuffers
      intro other inside back
      rcases mem_or_eq_of_mem_set inside with old | rfl
      · exact guarded.buffers other old back
      · exact guarded.buffers wrapped member back
    · have fewer : Guarded { world with buffers := world.buffers.eraseIdx buffer } := by
        apply guarded.setBuffers
        intro other inside back
        exact guarded.buffers other (mem_of_mem_eraseIdx inside) back
      cases ran
      split
      · next back => exact fewer.enter .bufferRelease (guarded.buffers wrapped member back)
      · exact fewer

omit guarded

theorem guarded_begun (begun : Begun world) : Guarded world := by
  obtain ⟨fresh, noInstances, noBuffers, noUnloads, noCalls⟩ := begun
  have sound := sound_fresh fresh
  obtain ⟨capacity, start⟩ := fresh
  refine ⟨sound, ?_, ?_, ?_, ?_⟩
  · rw [noInstances, start]
    exact .refl _
  · simp [noUnloads]
  · simp [noBuffers]
  · simp [NoLateCall, noCalls]

end Invariant

/-- In every run that closes a library only once no buffer calls back into it, and in which the
lease counters have room, no plugin function is entered after `PhysicalUnload` returned OK. -/
theorem no_call_after_unload (threadProbe : Option (PluginInfo → Bool)) {world : World}
    (reached : Reachable Begun (CarefulStep threadProbe) world) : NoLateCall world := by
  have guarded : Guarded world := by
    refine reachable_invariant Guarded (fun _ => guarded_begun) ?_ reached
    rintro before after _ guarded ⟨action, careful, ran⟩
    exact guarded_act guarded careful ran
  exact guarded.calls

/-- The scaler makes one operator, which wraps a buffer and emits it in a packet; the operator is
destroyed, its lease released, the plugin retired. -/
def wrappedAndGone : List Action :=
  [.load "scaler.json" (.ok scaler), .acquire scale, .construct 0, .constructed 0 true,
    .begin 0 .process, .wrap 0 true, .share 0 (.packet 7), .drop 0 .plugin, .finish 0 .process true,
    .destroy 0, .leave 0, .retire 1]

def idleWorld : World := { registry := ⟨{}, []⟩ }

theorem idleWorld_begun : Begun idleWorld := ⟨⟨4096, rfl⟩, rfl, rfl, rfl, rfl⟩

/-- The packet is consumed before the library is closed. -/
theorem consumed_then_unloaded : ∃ world : World,
    world.unloaded = [1] ∧ world.calls.map Entry.function =
      [.create, .process, .destroy, .bufferRelease] ∧ NoLateCall world := by
  have seen : ((wrappedAndGone ++ [Action.drop 0 (.packet 7), .physicalUnload 1]).foldlM
      (fun world action => if Careful world action then act none world action else none)
      idleWorld).map (fun world => (world.unloaded, world.calls.map Entry.function)) =
      some ([1], [.create, .process, .destroy, .bufferRelease]) := by decide +kernel
  obtain ⟨world, played, shown⟩ := map_eq_some_iff.mp seen
  obtain ⟨unloaded, functions⟩ := Prod.mk.inj shown
  have reached : Reachable Begun (CarefulStep none) world :=
    reachable_played (fun _ action _ done => ⟨action, ite_none_right_eq_some.mp done⟩)
      (.initial idleWorld_begun) played
  exact ⟨world, unloaded, functions, no_call_after_unload none reached⟩

/-- The packet still travels when the library is closed; consuming it calls into nowhere. -/
theorem callback_after_unload :
    ¬∀ world, Reachable Begun (WorldStep none) world → NoLateCall world := by
  intro always
  have seen : ((wrappedAndGone ++ [Action.physicalUnload 1, .drop 0 (.packet 7)]).foldlM
      (act none) idleWorld).map (fun world => world.calls.getLast?) =
        some (some ⟨1, .bufferRelease, true⟩) := by
    decide +kernel
  obtain ⟨world, played, last⟩ := map_eq_some_iff.mp seen
  have reached : Reachable Begun (WorldStep none) world :=
    reachable_played (fun _ action _ done => ⟨action, done⟩) (.initial idleWorld_begun) played
  have late := always world reached _ (mem_of_getLast? last)
  cases late

end GraphEngine.PluginCalls
