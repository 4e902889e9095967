import GraphEngine.PluginRegistry
import GraphEngine.Runs
import Mathlib.Logic.Relation

/-!
Runs of the plugin registry. Whatever the order of loads, creations, lease releases and
unloads, the key map holds exactly the keys of the live plugins and every plugin's references
are its live leases.
-/

namespace GraphEngine.PluginRuns

open Values KeyedLists PluginRegistry Runs State
open List hiding keys lookup

structure System where
  state : State
  leases : List PluginReference := []

inductive Call where
  | load (manifestPath : String) (validated : Except (String × Status) Loaded)
  | create (args : OperatorCreateArgs) (made : Result Unit)
  | release (lease : PluginReference)
  | retire (id : PluginId)
  | logicalUnload (id : PluginId)
  | physicalUnload (id : PluginId)

inductive Outcome where
  | loaded (result : Result PluginInfo)
  | created (result : Result Grant)
  | finished (result : Result Unit)

/-- A lease is released by its destructor, so only one that lives can be. -/
def perform (threadProbe : Option (PluginInfo → Bool)) (system : System) :
    Call → Option (System × Outcome)
  | .load manifestPath validated =>
    let (state, result) := system.state.load manifestPath validated
    some (⟨state, system.leases⟩, .loaded result)
  | .create args made =>
    match system.state.create args made with
    | (state, .ok grant) => some (⟨state, grant.lease :: system.leases⟩, .created (.ok grant))
    | (state, .error status) => some (⟨state, system.leases⟩, .created (.error status))
  | .release lease =>
    if lease ∈ system.leases then
      some (⟨system.state.release lease, system.leases.erase lease⟩, .finished (.ok ()))
    else none
  | .retire id =>
    let (state, result) := system.state.retire id
    some (⟨state, system.leases⟩, .finished result)
  | .logicalUnload id =>
    let (state, result) := system.state.logicalUnload id
    some (⟨state, system.leases⟩, .finished result)
  | .physicalUnload id =>
    let (state, result) := system.state.physicalUnload threadProbe id
    some (⟨state, system.leases⟩, .finished result)

def Fresh (system : System) : Prop := ∃ capacity, system = ⟨{ auditCapacity := capacity }, []⟩

def leasesOf (id : PluginId) (leases : List PluginReference) : List PluginReference :=
  leases.filter (·.pluginId = id)

/-- The counter of the plugin that a creation resolves to has room for one more. -/
def Roomy (system : System) : Call → Prop
  | .create args _ => ∀ id ∈ system.state.keys args.key,
      (leasesOf id system.leases).length + 1 < 2 ^ 32
  | _ => True

instance (system : System) (call : Call) : Decidable (Roomy system call) := by
  cases call <;> unfold Roomy <;> infer_instance

def Step (threadProbe : Option (PluginInfo → Bool)) (before after : System) : Prop :=
  ∃ call outcome, perform threadProbe before call = some (after, outcome)

def RoomyStep (threadProbe : Option (PluginInfo → Bool)) (before after : System) : Prop :=
  ∃ call outcome, Roomy before call ∧ perform threadProbe before call = some (after, outcome)

def unloaded (plugin : Plugin) : Bool :=
  plugin.state = .logicallyUnloaded || plugin.state = .physicallyUnloaded

structure Consistent (system : System) : Prop where
  owner : ∀ key id, system.state.keys key = some id →
    ∃ plugin ∈ system.state.plugins, plugin.id = id ∧ key ∈ plugin.operatorKeys ∧
      plugin.live = true ∧
      ∀ other ∈ system.state.plugins, other.live = true → key ∈ other.operatorKeys → other = plugin
  counted : ∀ plugin ∈ system.state.plugins,
    plugin.referenceCount.toNat = plugin.references.length ∧
      plugin.references.Perm (leasesOf plugin.id system.leases)
  unloaded : ∀ plugin ∈ system.state.plugins, unloaded plugin = true →
    plugin.references = [] ∧ ∀ key, system.state.keys key ≠ some plugin.id

/-- What one call may do, read off its outcome. -/
structure Faithful (before : System) (outcome : Outcome) (after : System) : Prop where
  created : ∀ grant, outcome = .created (.ok grant) →
    ∃ plugin ∈ before.state.plugins, plugin.id = grant.lease.pluginId ∧
      (plugin.state = .registered ∨ plugin.state = .active)
  rejected : ∀ status, outcome = .loaded (.error status) →
    after.state.plugins = before.state.plugins ∧ after.state.keys = before.state.keys ∧
      after.state.operatorGeneration = before.state.operatorGeneration
  generation : after.state.keys ≠ before.state.keys →
    after.state.operatorGeneration ≠ before.state.operatorGeneration

variable {plugin old : Plugin} {lease : PluginReference}

section Books

variable {plugins : List Plugin} {keys : OperatorKey → Option PluginId} {nextId : PluginId}
  {leases : List PluginReference} {next : Plugin}

/-- What one plugin shows of the key map and of its leases. -/
structure Kept (keys : OperatorKey → Option PluginId) (leases : List PluginReference)
    (plugin : Plugin) : Prop where
  listed : plugin.live = true → ∀ key ∈ plugin.operatorKeys, keys key = some plugin.id
  referenced : plugin.references.Perm (leasesOf plugin.id leases)
  counted : plugin.referenceCount.toNat = plugin.references.length
  idle : plugin.live = false → plugin.references = []

structure Sound (plugins : List Plugin) (keys : OperatorKey → Option PluginId) (nextId : PluginId)
    (leases : List PluginReference) : Prop where
  distinct : (plugins.map Plugin.id).Nodup
  young : ∀ plugin ∈ plugins, plugin.id < nextId
  held : ∀ lease ∈ leases, lease.pluginId ∈ plugins.map Plugin.id
  owned : ∀ key id, keys key = some id →
    ∃ plugin ∈ plugins, plugin.id = id ∧ plugin.live = true ∧ key ∈ plugin.operatorKeys
  kept : ∀ plugin ∈ plugins, Kept keys leases plugin

def replaced (next : Plugin) (plugins : List Plugin) : List Plugin :=
  plugins.map fun other => if other.id = next.id then next else other

theorem ids_replaced (next : Plugin) (plugins : List Plugin) :
    (replaced next plugins).map Plugin.id = plugins.map Plugin.id := by
  rw [replaced, map_map]
  apply map_congr_left
  intro other _
  by_cases same : other.id = next.id <;> simp [same]

theorem mem_replaced (member : old ∈ plugins) (same : next.id = old.id) :
    plugin ∈ replaced next plugins ↔ plugin = next ∨ plugin ∈ plugins ∧ plugin.id ≠ next.id := by
  constructor
  · intro inside
    obtain ⟨other, otherIn, rfl⟩ := mem_map.mp inside
    by_cases hit : other.id = next.id
    · exact .inl (if_pos hit)
    · rw [if_neg hit]
      exact .inr ⟨otherIn, hit⟩
  · rintro (rfl | ⟨otherIn, different⟩)
    · exact mem_map.mpr ⟨old, member, if_pos same.symm⟩
    · exact mem_map.mpr ⟨plugin, otherIn, if_neg different⟩

theorem next_mem_replaced (member : old ∈ plugins) (same : next.id = old.id) :
    next ∈ replaced next plugins :=
  (mem_replaced member same).mpr (.inl rfl)

variable (sound : Sound plugins keys nextId leases)
include sound

theorem Sound.unique {first second : Plugin} (firstIn : first ∈ plugins)
    (secondIn : second ∈ plugins) (same : first.id = second.id) : first = second :=
  inj_on_of_nodup_map sound.distinct firstIn secondIn same

theorem Sound.leased (held : lease ∈ leases) :
    ∃ plugin ∈ plugins, plugin.id = lease.pluginId ∧ plugin.live = true := by
  obtain ⟨plugin, member, same⟩ := mem_map.mp (sound.held lease held)
  have kept := sound.kept plugin member
  refine ⟨plugin, member, same, ?_⟩
  by_contra dead
  have empty := kept.idle (by simpa using dead)
  have mine : lease ∈ leasesOf plugin.id leases := mem_filter.mpr ⟨held, by simp [same]⟩
  rw [← kept.referenced.mem_iff, empty] at mine
  cases mine

theorem Sound.young_replaced (next : Plugin) : ∀ plugin ∈ replaced next plugins, plugin.id < nextId := by
  have young : ∀ id ∈ (replaced next plugins).map Plugin.id, id < nextId := by
    rw [ids_replaced]
    exact forall_mem_map.mpr sound.young
  exact forall_mem_map.mp young

theorem Sound.replace {after : List PluginReference} (member : old ∈ plugins)
    (same : next.id = old.id) (sameKeys : next.operatorKeys = old.operatorKeys)
    (sameLife : next.live = old.live) (referenced : next.references.Perm (leasesOf next.id after))
    (counted : next.referenceCount.toNat = next.references.length)
    (idle : next.live = false → next.references = [])
    (held : ∀ lease ∈ after, lease.pluginId ∈ plugins.map Plugin.id)
    (others : ∀ id, id ≠ old.id → leasesOf id after = leasesOf id leases) :
    Sound (replaced next plugins) keys nextId after where
  distinct := by
    rw [ids_replaced]
    exact sound.distinct
  young := sound.young_replaced next
  held := by
    rw [ids_replaced]
    exact held
  owned := by
    intro key id found
    obtain ⟨owner, ownerIn, ownerId, live, listed⟩ := sound.owned key id found
    by_cases hit : owner.id = next.id
    · have isOld : owner = old := sound.unique ownerIn member (hit.trans same)
      subst isOld
      exact ⟨next, (mem_replaced member same).mpr (.inl rfl), same.trans ownerId,
        sameLife.trans live, sameKeys ▸ listed⟩
    · exact ⟨owner, (mem_replaced member same).mpr (.inr ⟨ownerIn, hit⟩), ownerId, live, listed⟩
  kept := by
    intro plugin inside
    rcases (mem_replaced member same).mp inside with rfl | ⟨plainly, different⟩
    · refine ⟨?_, referenced, counted, idle⟩
      intro live key listed
      rw [same]
      exact (sound.kept old member).listed (sameLife ▸ live) key (sameKeys ▸ listed)
    · have before := sound.kept plugin plainly
      refine { before with referenced := ?_ }
      rw [others plugin.id (same ▸ different)]
      exact before.referenced

theorem Sound.unload (member : old ∈ plugins) (same : next.id = old.id) (live : old.live = true)
    (dead : next.live = false) (bare : old.references = []) (empty : next.references = [])
    (zero : next.referenceCount = 0) :
    Sound (replaced next plugins) (fun key => if key ∈ old.operatorKeys then none else keys key)
      nextId leases where
  distinct := by
    rw [ids_replaced]
    exact sound.distinct
  young := sound.young_replaced next
  held := by
    rw [ids_replaced]
    exact sound.held
  owned := by
    intro key id found
    split at found
    · cases found
    rename_i foreign
    obtain ⟨owner, ownerIn, ownerId, ownerLive, listed⟩ := sound.owned key id found
    refine ⟨owner, (mem_replaced member same).mpr (.inr ⟨ownerIn, ?_⟩), ownerId, ownerLive,
      listed⟩
    intro hit
    rw [sound.unique ownerIn member (hit.trans same)] at listed
    exact foreign listed
  kept := by
    intro plugin inside
    rcases (mem_replaced member same).mp inside with rfl | ⟨plainly, different⟩
    · have before := (sound.kept old member).referenced
      rw [bare, ← same] at before
      refine ⟨?_, by rw [empty]; exact before, by simp [empty, zero], fun _ => empty⟩
      intro alive
      rw [dead] at alive
      cases alive
    · have before := sound.kept plugin plainly
      refine { before with listed := ?_ }
      intro alive key listed
      have mine := before.listed alive key listed
      rw [if_neg, mine]
      intro shared
      rw [(sound.kept old member).listed live key shared] at mine
      exact different (same.trans (Option.some.inj mine)).symm

omit sound

end Books

variable {args : OperatorCreateArgs} {made : Result Unit} {id : PluginId} {grant : Grant}

section Calls

variable {state : State} {leases : List PluginReference}

def SoundState (state : State) (leases : List PluginReference) : Prop :=
  Sound state.plugins state.keys state.nextId leases

@[simp] theorem transition_snd (state : State) (plugin : Plugin) (target : PluginState) :
    (state.transition plugin target).2 = { plugin with state := target } := by
  unfold transition
  split
  · next same => simp [← same]
  · rfl

theorem transition_fst (state : State) (plugin : Plugin) (target : PluginState) :
    ∃ audit, (state.transition plugin target).1 = { state with audit } := by
  unfold transition
  split
  · exact ⟨state.audit, rfl⟩
  · exact ⟨_, rfl⟩

theorem unload_eq (state : State) (plugin : Plugin) :
    ∃ audit, state.unload plugin =
      { state with
        plugins := replaced { plugin with state := .logicallyUnloaded } state.plugins
        keys := fun key => if key ∈ plugin.operatorKeys then none else state.keys key
        operatorGeneration := state.operatorGeneration + 1
        audit } := by
  obtain ⟨audit, moved⟩ := transition_fst (state.dropKeys plugin) plugin .logicallyUnloaded
  simp only [unload, transition_snd, moved]
  exact ⟨_, rfl⟩

theorem find_mem (found : state.find id = some plugin) : plugin ∈ state.plugins ∧ plugin.id = id :=
  lookup_some found

theorem live_of_open (opened : plugin.state = .registered ∨ plugin.state = .active) :
    plugin.live = true := by
  rcases opened with opened | opened <;> simp [Plugin.live, opened]

/-- A change of the books that touches no key. With room, the counter of a new reference does not
wrap. -/
inductive Quiet (room : Prop) : System → System → Prop where
  | audited {system : System} (audit : List AuditRecord) :
      Quiet room system ⟨{ system.state with audit }, system.leases⟩
  | retiring {system : System} {plugin : Plugin} (audit : List AuditRecord)
      (member : plugin ∈ system.state.plugins)
      (opened : plugin.state = .registered ∨ plugin.state = .active) :
      Quiet room system ⟨{ system.state with
        plugins := replaced { plugin with state := .retiring } system.state.plugins, audit },
        system.leases⟩
  | referenced {system : System} {plugin : Plugin} {lease : PluginReference}
      (audit : List AuditRecord) (member : plugin ∈ system.state.plugins)
      (opened : plugin.state = .registered ∨ plugin.state = .active)
      (owner : lease.pluginId = plugin.id)
      (roomy : room → (leasesOf plugin.id system.leases).length + 1 < 2 ^ 32) :
      Quiet room system ⟨{ system.state with
        plugins := replaced { plugin with
          state := .active
          references := plugin.references ++ [lease]
          referenceCount := plugin.referenceCount + 1 } system.state.plugins, audit },
        lease :: system.leases⟩
  | released {system : System} {plugin : Plugin} {lease : PluginReference}
      (audit : List AuditRecord) (member : plugin ∈ system.state.plugins)
      (owner : plugin.id = lease.pluginId) (held : lease ∈ system.leases) :
      Quiet room system ⟨{ system.state with
        plugins := replaced (unreferenced plugin lease) system.state.plugins, audit },
        system.leases.erase lease⟩

inductive Loud : System → System → Prop where
  | registered {system : System} {loaded : Loaded} (audit : List AuditRecord)
      (free : system.state.takenKey loaded = none) :
      Loud system ⟨{ system.state with
        plugins := system.state.plugins ++
          [{ id := system.state.nextId, state := .registered, loaded }]
        keys := fun key => if key ∈ loaded.operators.map OperatorEntry.key
          then some system.state.nextId else system.state.keys key
        nextId := system.state.nextId + 1
        operatorGeneration := system.state.operatorGeneration + 1
        audit }, system.leases⟩
  | unloaded {system : System} {plugin : Plugin} (member : plugin ∈ system.state.plugins)
      (live : plugin.live = true) (zero : plugin.referenceCount = 0) :
      Loud system ⟨system.state.unload plugin, system.leases⟩

/-- What a call of the registry does: quiet changes, and then at most one of the key map. -/
def Edits (room : Prop) (before after : System) : Prop :=
  ∃ middle, Relation.ReflTransGen (Quiet room) before middle ∧ (after = middle ∨ Loud middle after)

variable {room : Prop} {before middle later : System}

def Shut (before after : System) : Prop :=
  ∃ plugin ∈ before.state.plugins, plugin.state = .logicallyUnloaded ∧ ∃ audit, after =
    ⟨{ before.state with
      plugins := replaced { closed plugin with state := .physicallyUnloaded } before.state.plugins
      audit }, before.leases⟩

theorem quiet_ids (quiet : Quiet room before middle) :
    middle.state.plugins.map Plugin.id = before.state.plugins.map Plugin.id := by
  cases quiet with
  | audited audit => rfl
  | _ => exact ids_replaced _ _

theorem edits_refl : Edits room before before := ⟨before, .refl, .inl rfl⟩

theorem edits_quiet (quiet : Quiet room before middle) : Edits room before middle :=
  ⟨middle, .single quiet, .inl rfl⟩

theorem edits_loud (loud : Loud before later) : Edits room before later := ⟨before, .refl, .inr loud⟩

theorem edits_head (quiet : Quiet room before middle) (edits : Edits room middle later) :
    Edits room before later := by
  obtain ⟨last, quiets, loud⟩ := edits
  exact ⟨last, .head quiet quiets, loud⟩

theorem load_edits (manifestPath : String) (validated : Except (String × Status) Loaded) :
    Edits room ⟨state, leases⟩ ⟨(state.load manifestPath validated).1, leases⟩ := by
  unfold load
  split
  · exact edits_quiet (.audited _)
  split
  · exact edits_quiet (.audited _)
  split
  · exact edits_quiet (.audited _)
  · next free => exact edits_loud (.registered _ free)

theorem retire_edits (id : PluginId) :
    Edits room ⟨state, leases⟩ ⟨(state.retire id).1, leases⟩ := by
  unfold retire
  split
  · exact edits_refl
  rename_i plugin found
  have member := (find_mem found).1
  split
  · exact edits_refl
  split
  · exact edits_refl
  obtain ⟨audit, moved⟩ := transition_fst state plugin .retiring
  simp only [transition_snd, moved]
  split
  · next zero =>
    exact edits_head (.retiring _ member (by tauto)) (edits_loud (@Loud.unloaded ⟨_, leases⟩
      { plugin with state := .retiring } (next_mem_replaced member rfl) rfl zero))
  · exact edits_quiet (.retiring _ member (by tauto))

theorem logicalUnload_edits (id : PluginId) :
    Edits room ⟨state, leases⟩ ⟨(state.logicalUnload id).1, leases⟩ := by
  unfold logicalUnload
  split
  · exact edits_refl
  rename_i plugin found
  split
  · exact edits_refl
  split
  · exact edits_refl
  split
  · exact edits_refl
  rename_i zero
  refine edits_loud (.unloaded (find_mem found).1 ?_ (not_not.mp zero))
  simp only [Plugin.live, Bool.or_eq_true, decide_eq_true_eq]
  tauto

theorem physicalUnload_cases (state : State) (threadProbe : Option (PluginInfo → Bool))
    (id : PluginId) :
    (∃ audit, (state.physicalUnload threadProbe id).1 = { state with audit } ∧
      ((state.physicalUnload threadProbe id).2.isOk = true →
        ∃ plugin ∈ state.plugins, plugin.id = id ∧ plugin.state = .physicallyUnloaded)) ∨
    ∃ plugin audit, state.find id = some plugin ∧ plugin.state = .logicallyUnloaded ∧
      (state.physicalUnload threadProbe id).1 = { state with
        plugins := replaced { closed plugin with state := .physicallyUnloaded } state.plugins
        audit } := by
  unfold physicalUnload
  split
  · exact .inl ⟨_, rfl, by simp [Except.toBool]⟩
  rename_i plugin found
  split
  · next gone => exact .inl ⟨_, rfl, fun _ => ⟨plugin, (find_mem found).1, (find_mem found).2, gone⟩⟩
  split
  · exact .inl ⟨_, rfl, by simp [Except.toBool]⟩
  rename_i allowed
  obtain ⟨audit, moved⟩ := transition_fst state (closed plugin) .physicallyUnloaded
  have unloaded : plugin.state = .logicallyUnloaded := by
    by_contra other
    simp [unsafeReason, other] at allowed
  simp only [transition_snd, moved]
  exact .inr ⟨plugin, _, found, unloaded, rfl⟩

variable {after : State}

theorem acquire_ok (granted : state.acquire args = (after, .ok grant)) :
    ∃ plugin audit, plugin ∈ state.plugins ∧ state.keys args.key = some plugin.id ∧
      (plugin.state = .registered ∨ plugin.state = .active) ∧ grant.lease.pluginId = plugin.id ∧
      after = { state with
        plugins := replaced
          { plugin with
            state := .active
            references := plugin.references ++ [grant.lease]
            referenceCount := plugin.referenceCount + 1 } state.plugins
        audit } := by
  unfold acquire at granted
  split at granted
  · cases granted
  rename_i id resolved
  split at granted
  · cases granted
  rename_i plugin found
  obtain ⟨member, rfl⟩ := find_mem found
  split at granted
  · cases granted
  split at granted
  · next capability vtable entry =>
      simp only [transition_snd] at granted
      obtain ⟨audit, moved⟩ := transition_fst
        (state.append plugin.id "reference" (PluginReference.toJson
          ⟨plugin.id, args.key, args.sessionId, args.nodeId, args.topologyVersion⟩))
        { plugin with
          references := plugin.references ++ [⟨plugin.id, args.key, args.sessionId,
            args.nodeId, args.topologyVersion⟩]
          referenceCount := plugin.referenceCount + 1 } .active
      rw [moved] at granted
      obtain ⟨rfl, rfl⟩ := granted
      exact ⟨plugin, audit, member, resolved, by tauto, rfl, rfl⟩
  · cases granted

theorem acquire_error {status : Status} (refused : state.acquire args = (after, .error status)) :
    after = state := by
  unfold acquire at refused
  split at refused
  · cases refused
    rfl
  split at refused
  · cases refused
    rfl
  split at refused
  · cases refused
    rfl
  split at refused
  · simp at refused
  · cases refused
    rfl

theorem release_edits (held : lease ∈ leases)
    (known : lease.pluginId ∈ state.plugins.map Plugin.id) :
    Edits room ⟨state, leases⟩ ⟨state.release lease, leases.erase lease⟩ := by
  unfold release
  split
  · next missing => exact absurd known (lookup_none.mp missing)
  rename_i plugin found
  obtain ⟨member, owner⟩ := find_mem found
  dsimp only
  split
  · next last =>
    refine edits_head (.released _ member owner held) (edits_loud (.unloaded ?_ ?_ last.2))
    · exact next_mem_replaced member rfl
    · simp [Plugin.live, last.1]
  · exact edits_quiet (.released _ member owner held)

theorem create_edits {result : Result Grant} (ran : state.create args made = (after, result))
    (roomy : room → ∀ id, state.keys args.key = some id → (leasesOf id leases).length + 1 < 2 ^ 32) :
    Edits room ⟨state, leases⟩
      ⟨after, match result with | .ok grant => grant.lease :: leases | .error _ => leases⟩ := by
  unfold create at ran
  split at ran
  · next refused =>
    cases ran
    rw [acquire_error refused]
    exact edits_refl
  · next grant granted =>
    obtain ⟨plugin, audit, member, resolved, opened, owner, rfl⟩ := acquire_ok granted
    have quiet := @Quiet.referenced room ⟨state, leases⟩ plugin grant.lease audit member opened owner
      fun enough => roomy enough _ resolved
    split at ran
    · cases ran
      exact edits_quiet quiet
    cases ran
    refine edits_head quiet ?_
    have known : grant.lease.pluginId ∈ state.plugins.map Plugin.id := owner ▸ mem_map_of_mem member
    rw [← quiet_ids quiet] at known
    have back := @release_edits grant.lease _ (grant.lease :: leases) room mem_cons_self known
    rwa [erase_cons_head] at back

end Calls

section Soundness

variable {state : State} {leases : List PluginReference} {room : Prop} {before after : System}

theorem takenKey_none {loaded : Loaded} (free : state.takenKey loaded = none)
    {entry : OperatorEntry} (member : entry ∈ loaded.operators) : state.keys entry.key = none := by
  have each := findSome?_eq_none_iff.mp free entry member
  simpa using each

theorem sound_registered (sound : SoundState state leases) {loaded : Loaded}
    (free : state.takenKey loaded = none) :
    Sound (state.plugins ++ [{ id := state.nextId, state := .registered, loaded }])
      (fun key => if key ∈ loaded.operators.map OperatorEntry.key then some state.nextId
        else state.keys key) (state.nextId + 1) leases where
  distinct := by
    rw [map_append, nodup_append]
    refine ⟨sound.distinct, by simp, ?_⟩
    intro first firstIn second secondIn same
    obtain ⟨plugin, member, rfl⟩ := mem_map.mp firstIn
    simp only [map_cons, map_nil, mem_singleton] at secondIn
    exact (sound.young plugin member).ne (same.trans secondIn)
  young := by
    intro plugin member
    rcases mem_append.mp member with old | new
    · exact Nat.lt_succ_of_lt (sound.young plugin old)
    · rw [mem_singleton.mp new]
      exact Nat.lt_succ_self _
  held := by
    intro lease member
    rw [map_append]
    exact mem_append_left _ (sound.held lease member)
  owned := by
    intro key id found
    split at found
    · next listed =>
        exact ⟨_, mem_append_right _ (mem_singleton.mpr rfl), Option.some.inj found, rfl,
          listed⟩
    · obtain ⟨plugin, member, owner⟩ := sound.owned key id found
      exact ⟨plugin, mem_append_left _ member, owner⟩
  kept := by
    intro plugin member
    rcases mem_append.mp member with old | new
    · have kept := sound.kept plugin old
      refine { kept with listed := ?_ }
      intro live key listed
      have mine := kept.listed live key listed
      rw [if_neg, mine]
      intro taken
      obtain ⟨entry, entryIn, rfl⟩ := mem_map.mp taken
      rw [takenKey_none free entryIn] at mine
      cases mine
    · rw [mem_singleton.mp new]
      refine ⟨fun _ key listed => if_pos listed, ?_, rfl, fun _ => rfl⟩
      have nobody : leasesOf state.nextId leases = [] := by
        rw [leasesOf, filter_eq_nil_iff]
        intro lease member
        obtain ⟨plugin, inside, same⟩ := mem_map.mp (sound.held lease member)
        simpa [← same] using (sound.young plugin inside).ne
      simp [nobody]

theorem operatorKeys_closed (plugin : Plugin) :
    (closed plugin).operatorKeys = plugin.operatorKeys := by
  simp [closed, Plugin.operatorKeys]

theorem leasesOf_cons_same (same : lease.pluginId = id) (leases : List PluginReference) :
    leasesOf id (lease :: leases) = lease :: leasesOf id leases := by
  simp [leasesOf, same]

theorem leasesOf_cons_other (other : lease.pluginId ≠ id) (leases : List PluginReference) :
    leasesOf id (lease :: leases) = leasesOf id leases := by
  simp [leasesOf, other]

theorem eraseP_matching {refs : List PluginReference}
    (sameId : ∀ ref ∈ refs, ref.pluginId = lease.pluginId) :
    (refs.eraseP fun ref => decide (ref.sessionId = lease.sessionId ∧ ref.nodeId = lease.nodeId ∧
      ref.topologyVersion = lease.topologyVersion ∧ ref.key = lease.key)) = refs.erase lease := by
  induction refs with
  | nil => rfl
  | cons ref rest ih =>
    obtain ⟨first, sameId⟩ := forall_mem_cons.mp sameId
    by_cases hit : ref = lease
    · subst hit
      simp
    · have apart : ¬(ref.sessionId = lease.sessionId ∧ ref.nodeId = lease.nodeId ∧
          ref.topologyVersion = lease.topologyVersion ∧ ref.key = lease.key) := by
        rintro ⟨session, node, version, key⟩
        apply hit
        cases ref
        cases lease
        simp_all
      rw [eraseP_cons_of_neg (by simpa using apart),
        erase_cons_tail (by simpa using hit), ih sameId]

theorem leasesOf_erase (id : PluginId) (lease : PluginReference) (leases : List PluginReference) :
    leasesOf id (leases.erase lease) = (leasesOf id leases).erase lease :=
  erase_filter.symm

theorem toNat_decrement {count : UInt32} (positive : 0 < count.toNat) :
    (if 0 < count then count - 1 else count).toNat = count.toNat - 1 := by
  have more : 0 < count := UInt32.lt_iff_toNat_lt.mpr positive
  have one : (1 : UInt32) ≤ count := UInt32.le_iff_toNat_le.mpr positive
  rw [if_pos more, UInt32.toNat_sub_of_le _ _ one]
  rfl

theorem sound_referenced (sound : SoundState state leases) (member : plugin ∈ state.plugins)
    (opened : plugin.state = .registered ∨ plugin.state = .active)
    (owner : lease.pluginId = plugin.id) (roomy : (leasesOf plugin.id leases).length + 1 < 2 ^ 32) :
    Sound (replaced { plugin with
      state := .active
      references := plugin.references ++ [lease]
      referenceCount := plugin.referenceCount + 1 } state.plugins) state.keys state.nextId
      (lease :: leases) := by
  have kept := sound.kept plugin member
  refine Sound.replace sound member rfl rfl (live_of_open opened).symm ?_ ?_
    (fun dead => by cases dead) ?_ ?_
  · rw [leasesOf_cons_same owner]
    exact (perm_append_singleton _ _).trans (kept.referenced.cons _)
  · rw [UInt32.toNat_add, kept.counted, length_append]
    exact Nat.mod_eq_of_lt (kept.referenced.length_eq ▸ roomy)
  · intro lease inside
    rcases mem_cons.mp inside with rfl | old
    · rw [owner]
      exact mem_map_of_mem member
    · exact sound.held lease old
  · intro id different
    exact leasesOf_cons_other (owner ▸ different.symm) leases

theorem sound_released (sound : SoundState state leases) (member : plugin ∈ state.plugins)
    (owner : plugin.id = lease.pluginId) (held : lease ∈ leases) :
    Sound (replaced (unreferenced plugin lease) state.plugins) state.keys state.nextId
      (leases.erase lease) := by
  have kept := sound.kept plugin member
  have mine : lease ∈ leasesOf plugin.id leases := mem_filter.mpr ⟨held, by simp [owner]⟩
  have listed : lease ∈ plugin.references := kept.referenced.mem_iff.mpr mine
  have sameId : ∀ ref ∈ plugin.references, ref.pluginId = lease.pluginId := by
    intro ref inside
    have filtered := (mem_filter.mp (kept.referenced.mem_iff.mp inside)).2
    rw [← owner]
    simpa using filtered
  have references : (unreferenced plugin lease).references =
      plugin.references.erase lease := eraseP_matching sameId
  refine Sound.replace sound member rfl rfl rfl ?_ ?_ ?_ ?_ ?_
  · rw [leasesOf_erase, references]
    exact kept.referenced.erase lease
  · rw [references, length_erase_of_mem listed, ← kept.counted]
    exact toNat_decrement (kept.counted ▸ length_pos_of_mem listed)
  · intro dead
    rw [kept.idle dead] at listed
    cases listed
  · exact fun other member => sound.held other (mem_of_mem_erase member)
  · intro id different
    rw [leasesOf_erase, erase_of_not_mem]
    intro inside
    have same : lease.pluginId = id := by simpa using (mem_filter.mp inside).2
    exact different (same.symm.trans owner.symm)

theorem sound_quiet (enough : room) (quiet : Quiet room before after)
    (sound : SoundState before.state before.leases) : SoundState after.state after.leases := by
  cases quiet with
  | audited audit => exact sound
  | referenced audit member opened owner roomy =>
    exact sound_referenced sound member opened owner (roomy enough)
  | released audit member owner held => exact sound_released sound member owner held
  | retiring audit member opened =>
    have kept := sound.kept _ member
    have live := live_of_open opened
    exact Sound.replace sound member rfl rfl live.symm kept.referenced kept.counted
      (fun dead => by cases dead) sound.held fun _ _ => rfl

theorem sound_shut (shut : Shut before after) (sound : SoundState before.state before.leases) :
    SoundState after.state after.leases := by
  obtain ⟨plugin, member, gone, audit, rfl⟩ := shut
  have kept := sound.kept plugin member
  have dead : plugin.live = false := by simp [Plugin.live, gone]
  exact Sound.replace sound member rfl (operatorKeys_closed plugin) dead.symm
    kept.referenced kept.counted (fun _ => kept.idle dead) sound.held fun _ _ => rfl

theorem sound_loud (loud : Loud before after) (sound : SoundState before.state before.leases) :
    SoundState after.state after.leases := by
  cases loud with
  | registered audit free => exact sound_registered sound free
  | unloaded member live zero =>
    obtain ⟨audit, result⟩ := unload_eq _ _
    have counted := (sound.kept _ member).counted
    rw [zero] at counted
    have bare := eq_nil_of_length_eq_zero counted.symm
    rw [result]
    exact Sound.unload sound member rfl live rfl bare bare zero

theorem sound_edits (enough : room) (edits : Edits room before after)
    (sound : SoundState before.state before.leases) : SoundState after.state after.leases := by
  obtain ⟨middle, quiets, last⟩ := edits
  have settled : SoundState middle.state middle.leases := by
    clear last
    induction quiets with
    | refl => exact sound
    | tail _ quiet ih => exact sound_quiet enough quiet ih
  rcases last with rfl | loud
  · exact settled
  · exact sound_loud loud settled

def Marked (before after : State) : Prop :=
  after.keys = before.keys ∨ after.operatorGeneration = before.operatorGeneration + 1

theorem marked_edits (edits : Edits room before after) : Marked before.state after.state := by
  obtain ⟨middle, quiets, last⟩ := edits
  have still : middle.state.keys = before.state.keys ∧
      middle.state.operatorGeneration = before.state.operatorGeneration := by
    clear last
    induction quiets with
    | refl => exact ⟨rfl, rfl⟩
    | tail _ quiet ih => cases quiet <;> exact ih
  rcases last with rfl | loud
  · exact .inl still.1
  · rw [Marked, ← still.2]
    cases loud with
    | registered audit free => exact .inr rfl
    | unloaded member live zero =>
      obtain ⟨audit, result⟩ := unload_eq _ _
      exact .inr (by rw [result])

end Soundness

section Outcomes

variable {state after : State}

theorem create_open (ran : state.create args made = (after, .ok grant)) :
    ∃ plugin ∈ state.plugins, plugin.id = grant.lease.pluginId ∧
      (plugin.state = .registered ∨ plugin.state = .active) := by
  unfold create at ran
  split at ran
  · cases ran
  rename_i granted
  split at ran
  · cases ran
    obtain ⟨plugin, _, member, _, opened, owner, _⟩ := acquire_ok granted
    exact ⟨plugin, member, owner.symm, opened⟩
  · cases ran

theorem load_error {manifestPath : String} {validated : Except (String × Status) Loaded}
    {status : Status} (rejected : (state.load manifestPath validated).2 = .error status) :
    ∃ audit, (state.load manifestPath validated).1 = { state with audit } := by
  cases validated with
  | error failed => exact ⟨_, rfl⟩
  | ok loaded =>
    simp only [load] at rejected ⊢
    cases clash : state.sameName loaded with
    | some plugin => exact ⟨_, rfl⟩
    | none =>
      rw [clash] at rejected
      cases taken : state.takenKey loaded with
      | some owner => exact ⟨_, rfl⟩
      | none =>
        rw [taken] at rejected
        cases rejected

end Outcomes

theorem Sound.consistent {system : System} (sound : SoundState system.state system.leases) :
    Consistent system where
  owner := by
    intro key id found
    obtain ⟨plugin, member, same, live, listed⟩ := sound.owned key id found
    refine ⟨plugin, member, same, listed, live, ?_⟩
    intro other otherIn otherLive otherListed
    have shared := (sound.kept other otherIn).listed otherLive key otherListed
    rw [found] at shared
    exact sound.unique otherIn member ((Option.some.inj shared).symm.trans same.symm)
  counted := fun plugin member =>
    ⟨(sound.kept plugin member).counted, (sound.kept plugin member).referenced⟩
  unloaded := by
    intro plugin member gone
    have dead : plugin.live = false := by
      simp only [PluginRuns.unloaded, Bool.or_eq_true, decide_eq_true_eq] at gone
      rcases gone with gone | gone <;> simp [Plugin.live, gone]
    refine ⟨(sound.kept plugin member).idle dead, ?_⟩
    intro key found
    obtain ⟨owner, ownerIn, same, live, _⟩ := sound.owned key plugin.id found
    rw [sound.unique ownerIn member same, dead] at live
    cases live

section Calls

variable {threadProbe : Option (PluginInfo → Bool)} {system after : System} {outcome : Outcome}
  {call : Call}

theorem marked_ne {before after : State} (marked : Marked before after)
    (changed : after.keys ≠ before.keys) :
    after.operatorGeneration ≠ before.operatorGeneration := by
  rcases marked with same | moved
  · exact absurd same changed
  · rw [moved]
    intro stuck
    simp at stuck

variable (sound : SoundState system.state system.leases)
include sound

theorem perform_cases (ran : perform threadProbe system call = some (after, outcome)) :
    Edits (Roomy system call) system after ∨ Shut system after := by
  cases call with
  | load manifestPath validated =>
    cases ran
    exact .inl (load_edits manifestPath validated)
  | create args made =>
    simp only [perform] at ran
    split at ran
    · next created =>
      cases ran
      exact .inl (create_edits created fun roomy => roomy)
    rename_i created
    cases ran
    exact .inl (create_edits created fun roomy => roomy)
  | release lease =>
    obtain ⟨held, same⟩ := Option.ite_none_right_eq_some.mp ran
    cases same
    exact .inl (release_edits held (sound.held lease held))
  | retire id =>
    cases ran
    exact .inl (retire_edits id)
  | logicalUnload id =>
    cases ran
    exact .inl (logicalUnload_edits id)
  | physicalUnload id =>
    cases ran
    rcases physicalUnload_cases system.state threadProbe id with
      ⟨audit, same, _⟩ | ⟨plugin, audit, found, gone, same⟩
    · exact .inl (same ▸ edits_quiet (.audited audit))
    · exact .inr ⟨plugin, (find_mem found).1, gone, audit, congrArg (System.mk · system.leases) same⟩

theorem sound_call (roomy : Roomy system call)
    (ran : perform threadProbe system call = some (after, outcome)) :
    SoundState after.state after.leases := by
  rcases perform_cases sound ran with edits | shut
  · exact sound_edits roomy edits sound
  · exact sound_shut shut sound

theorem faithful_call (ran : perform threadProbe system call = some (after, outcome)) :
    Faithful system outcome after where
  created := by
    rintro grant rfl
    cases call with
    | create args made =>
      simp only [perform] at ran
      split at ran
      · next created =>
          cases ran
          exact create_open created
      · cases ran
    | release lease =>
      simp only [perform] at ran
      split at ran <;> cases ran
    | load manifestPath validated | retire id | logicalUnload id | physicalUnload id => cases ran
  rejected := by
    intro status failed
    cases call with
    | load manifestPath validated =>
      simp only [perform, Option.some.injEq, Prod.mk.injEq] at ran
      obtain ⟨rfl, result⟩ := ran
      rw [failed] at result
      obtain ⟨audit, unchanged⟩ := load_error (Outcome.loaded.inj result)
      dsimp only
      rw [unchanged]
      exact ⟨rfl, rfl, rfl⟩
    | create args made =>
      simp only [perform] at ran
      split at ran <;> cases ran <;> cases failed
    | release lease =>
      simp only [perform] at ran
      split at ran <;> cases ran
      cases failed
    | retire id | logicalUnload id | physicalUnload id =>
      cases ran
      cases failed
  generation := by
    rcases perform_cases sound ran with edits | ⟨_, _, _, _, rfl⟩
    · exact marked_ne (marked_edits edits)
    · exact absurd rfl

omit sound

end Calls

theorem sound_fresh {system : System} (fresh : Fresh system) :
    SoundState system.state system.leases := by
  obtain ⟨capacity, rfl⟩ := fresh
  exact ⟨nodup_nil, by simp, by simp, by simp, by simp⟩

/-- In every run whose creations find room in the plugin's counter, keys, states, counts and
leases agree in every state, and every call from there does what its outcome says. -/
theorem registry_consistent (threadProbe : Option (PluginInfo → Bool)) {system : System}
    (reached : Reachable Fresh (RoomyStep threadProbe) system) :
    Consistent system ∧ ∀ call outcome after,
      perform threadProbe system call = some (after, outcome) → Faithful system outcome after := by
  have sound : SoundState system.state system.leases := by
    refine reachable_invariant (fun system => SoundState system.state system.leases)
      (fun _ => sound_fresh) ?_ reached
    rintro before after _ sound ⟨call, outcome, roomy, ran⟩
    exact sound_call sound roomy ran
  exact ⟨Sound.consistent sound, fun _ _ _ => faithful_call sound⟩

def scaler : Loaded where
  handle := some 1
  manifest := { pluginId := "scaler" }
  operators := [⟨⟨"scale", "1"⟩, { op := ⟨"scale", "1"⟩ }, some 2⟩]

def scale : OperatorCreateArgs := { key := ⟨"scale", "1"⟩ }

def scaleLease : PluginReference := ⟨1, ⟨"scale", "1"⟩, 0, 0, 0⟩

/-- The plugin retires, its last lease goes, and a second load takes its keys. -/
theorem reloaded_consistent : ∃ system : System,
    system.state.plugins.map Plugin.state = [.logicallyUnloaded, .registered] ∧
      system.state.keys scale.key = some 2 ∧ Consistent system := by
  have begun : Reachable Fresh (RoomyStep none) ⟨{ auditCapacity := 4096 }, []⟩ :=
    .initial ⟨4096, rfl⟩
  have loaded := begun.next ⟨.load "scaler.json" (.ok scaler), _, trivial, rfl⟩
  have created := loaded.next ⟨.create scale (.ok ()), _, fun _ _ => by simp [leasesOf], rfl⟩
  have retired := created.next ⟨.retire 1, _, trivial, rfl⟩
  have released := retired.next ⟨.release scaleLease, _, trivial, rfl⟩
  have reloaded := released.next ⟨.load "scaler.json" (.ok scaler), _, trivial, rfl⟩
  exact ⟨_, rfl, rfl, (registry_consistent none reloaded).1⟩

def crowded (count : Nat) : Plugin where
  id := 1
  state := if count = 0 then .registered else .active
  loaded := scaler
  references := replicate count scaleLease
  referenceCount := UInt32.ofNat count

theorem crowded_next (count : Nat) :
    ({ crowded count with
      state := .active
      references := (crowded count).references ++ [scaleLease]
      referenceCount := (crowded count).referenceCount + 1 } : Plugin) = crowded (count + 1) := by
  simp [crowded, replicate_succ']

theorem acquire_crowded {state : State} {count : Nat} (alone : state.plugins = [crowded count])
    (resolved : state.keys scale.key = some 1) :
    ∃ after, state.acquire scale = (after, .ok ⟨scaleLease, 2, true⟩) := by
  have found : state.find 1 = some (crowded count) := by
    simp [find, alone, lookup, crowded]
  have opened : ¬((crowded count).state ≠ .registered ∧ (crowded count).state ≠ .active) := by
    unfold crowded
    split <;> simp
  unfold acquire
  simp only [resolved, found, if_neg opened]
  exact ⟨_, rfl⟩

theorem crowded_reached (count : Nat) : ∃ system : System, Reachable Fresh (Step none) system ∧
    system.state.plugins = [crowded count] ∧ system.state.keys scale.key = some 1 := by
  induction count with
  | zero =>
    have begun : Reachable Fresh (Step none) ⟨{ auditCapacity := 4096 }, []⟩ := .initial ⟨4096, rfl⟩
    exact ⟨_, begun.next ⟨.load "scaler.json" (.ok scaler), _, rfl⟩, rfl, rfl⟩
  | succ count ih =>
    obtain ⟨system, reached, alone, resolved⟩ := ih
    obtain ⟨after, granted⟩ := acquire_crowded alone resolved
    have ran : perform none system (.create scale (.ok ())) =
        some (⟨after, scaleLease :: system.leases⟩, .created (.ok ⟨scaleLease, 2, true⟩)) := by
      simp only [perform, create, granted]
    refine ⟨_, reached.next ⟨_, _, ran⟩, ?_⟩
    obtain ⟨plugin, audit, member, _, _, _, entered⟩ := acquire_ok granted
    rw [alone, mem_singleton] at member
    subst member
    rw [entered, alone]
    refine ⟨?_, resolved⟩
    rw [← crowded_next]
    rfl

theorem crowded_counted (count : Nat) : ∃ system : System, Reachable Fresh (Step none) system ∧
    (Consistent system → count % 2 ^ 32 = count) := by
  obtain ⟨system, reached, alone, _⟩ := crowded_reached count
  refine ⟨system, reached, ?_⟩
  intro consistent
  have counted := (consistent.counted (crowded count) (by rw [alone]; exact mem_singleton.mpr rfl)).1
  simpa [crowded] using counted

/-- At 2^32 live instances the 32-bit counter reads 0. -/
theorem counter_wraps : ¬∀ system, Reachable Fresh (Step none) system → Consistent system := by
  intro always
  obtain ⟨system, reached, counted⟩ := crowded_counted (2 ^ 32)
  have wrapped := counted (always system reached)
  revert wrapped
  decide

end GraphEngine.PluginRuns
