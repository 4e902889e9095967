import GraphEngine.Runs
import GraphEngine.Values
import Mathlib.Data.List.Count

/-!
The services of the engines in one process (plugin_operator.cpp). A record or an event names the
session of its operator only; the receiver is looked up in a table of the process, which has one
counted entry for all adapters of a session id. Each engine numbers its sessions from one. What an
operator publishes during a process call does not go this way and is not modelled.
-/

namespace GraphEngine.SessionServices

open Values Runs Function Option List

/-- The services an engine hands to its adapters stand for the engine; `none` is `HostServices{}`. -/
structure Entry where
  services : Option Nat := none
  refs : UInt32 := 0

structure HostApiAdapter where
  engine : Nat
  session : Nat
  deriving DecidableEq

inductive Message where
  | log | event
  deriving DecidableEq

/-- A call of the services of an engine, and whether that engine was still there. -/
structure Delivery where
  message : Message
  sender : HostApiAdapter
  receiver : Nat
  alive : Bool
  deriving DecidableEq

/-- Engines are numbered as they are made; the deliveries are history. -/
structure Process where
  entries : Nat → Option Entry := fun _ => none
  engines : Nat := 0
  alive : Nat → Bool := fun _ => false
  nextSessionId : Nat → Nat := fun _ => 1
  adapters : List HostApiAdapter := []
  deliveries : List Delivery := []

namespace Process

def add (process : Process) (session : Nat) (services : Nat) : Process :=
  let entry := (process.entries session).getD {}
  { process with
    entries := update process.entries session (some {
      services := if entry.refs = 0 then some services else entry.services
      refs := entry.refs + 1 }) }

def remove (process : Process) (session : Nat) : Process :=
  match process.entries session with
  | none => process
  | some entry =>
    { process with
      entries := update process.entries session
        (if entry.refs - 1 = 0 then none else some { entry with refs := entry.refs - 1 }) }

def find (process : Process) (session : Nat) : Option Nat :=
  (process.entries session).bind Entry.services

def deliver (process : Process) (message : Message) (sender : HostApiAdapter) (receiver : Nat) :
    Process :=
  { process with
    deliveries := process.deliveries ++ [⟨message, sender, receiver, process.alive receiver⟩] }

def log (process : Process) (sender : HostApiAdapter) : Process :=
  match process.find sender.session with
  | none => process
  | some receiver => process.deliver .log sender receiver

def eventPublish (process : Process) (sender : HostApiAdapter) : Result Unit × Process :=
  match process.find sender.session with
  | none => (.error (.notFound "no event sink for session"), process)
  | some receiver => (.ok (), process.deliver .event sender receiver)

end Process

inductive Action where
  | createEngine
  | createSession (engine : Nat)
  | createAdapter (adapter : HostApiAdapter)
  | destroyAdapter (adapter : HostApiAdapter)
  | destroyEngine (engine : Nat)
  | log (adapter : HostApiAdapter)
  | eventPublish (adapter : HostApiAdapter)

/-- Adapters are made for the sessions of an engine that is there, and operators call as long as
they have their adapter. -/
def act (process : Process) : Action → Option Process
  | .createEngine =>
    some { process with
      engines := process.engines + 1
      alive := update process.alive process.engines true }
  | .createSession engine =>
    if process.alive engine then
      some { process with
        nextSessionId := update process.nextSessionId engine
          (process.nextSessionId engine + 1) }
    else none
  | .createAdapter adapter =>
    if process.alive adapter.engine ∧ 1 ≤ adapter.session ∧
        adapter.session < process.nextSessionId adapter.engine then
      some { process.add adapter.session adapter.engine with
        adapters := adapter :: process.adapters }
    else none
  | .destroyAdapter adapter =>
    if adapter ∈ process.adapters then
      some { process.remove adapter.session with adapters := process.adapters.erase adapter }
    else none
  | .destroyEngine engine =>
    if process.alive engine then
      some { process with alive := update process.alive engine false }
    else none
  | .log adapter => if adapter ∈ process.adapters then some (process.log adapter) else none
  | .eventPublish adapter =>
    if adapter ∈ process.adapters then some (process.eventPublish adapter).2 else none

def sharing (adapters : List HostApiAdapter) (session : Nat) : List HostApiAdapter :=
  adapters.filter fun adapter => adapter.session = session

/-- An adapter is made while no other engine has one for the same session id and the 32 bits of the
count have room for it, and an engine goes when it has none left. -/
def allowed (process : Process) : Action → Prop
  | .createAdapter adapter =>
    (∀ other ∈ process.adapters, other.session = adapter.session →
      other.engine = adapter.engine) ∧
    (sharing process.adapters adapter.session).length + 1 < UInt32.size
  | .destroyEngine engine => ∀ other ∈ process.adapters, other.engine ≠ engine
  | _ => True

instance (process : Process) (action : Action) : Decidable (allowed process action) := by
  cases action <;> unfold allowed <;> infer_instance

def entryOf (adapters : List HostApiAdapter) : Option Entry :=
  adapters.head?.map fun first => ⟨some first.engine, .ofNat adapters.length⟩

structure Isolated (process : Process) : Prop where
  table : ∀ session, process.entries session = entryOf (sharing process.adapters session)
  counted : ∀ session, (sharing process.adapters session).length < UInt32.size
  coherent : ∀ left ∈ process.adapters, ∀ right ∈ process.adapters,
    left.session = right.session → left.engine = right.engine
  living : ∀ adapter ∈ process.adapters, process.alive adapter.engine = true
  delivered : ∀ delivery ∈ process.deliveries,
    delivery.receiver = delivery.sender.engine ∧ delivery.alive = true

variable {process : Process} {adapter : HostApiAdapter}

theorem entryOf_engine {adapters : List HostApiAdapter} {engine : Nat} (some_ : adapters ≠ [])
    (same : ∀ adapter ∈ adapters, adapter.engine = engine) :
    entryOf adapters = some ⟨some engine, .ofNat adapters.length⟩ := by
  cases adapters with
  | nil => exact absurd rfl some_
  | cons first rest => simp [entryOf, same first mem_cons_self]

theorem ofNat_eq_zero {count : Nat} (small : count < UInt32.size) :
    UInt32.ofNat count = 0 ↔ count = 0 := by
  rw [← UInt32.toNat_inj, UInt32.toNat_ofNat_of_lt' small]
  rfl

namespace Isolated

variable (isolated : Isolated process)
include isolated

theorem entry (listed : adapter ∈ process.adapters) : process.entries adapter.session =
      some ⟨some adapter.engine, .ofNat (sharing process.adapters adapter.session).length⟩ := by
  rw [isolated.table, entryOf_engine]
  · exact ne_nil_of_mem (mem_filter.mpr ⟨listed, decide_eq_true rfl⟩)
  · intro other shared
    obtain ⟨inside, same⟩ := mem_filter.mp shared
    exact isolated.coherent other inside adapter listed (of_decide_eq_true same)

theorem deliver (message : Message) (listed : adapter ∈ process.adapters) :
    Isolated (process.deliver message adapter adapter.engine) := by
  exact { isolated with
    delivered := forall_mem_append.mpr ⟨isolated.delivered, forall_mem_singleton.mpr
      ⟨rfl, isolated.living adapter listed⟩⟩ }

theorem create (alive : process.alive adapter.engine = true)
    (alone : ∀ other ∈ process.adapters, other.session = adapter.session →
      other.engine = adapter.engine)
    (room : (sharing process.adapters adapter.session).length + 1 < UInt32.size) :
    Isolated { process.add adapter.session adapter.engine with
      adapters := adapter :: process.adapters } := by
  refine ⟨fun session => ?_, fun session => ?_, ?_,
    forall_mem_cons.mpr ⟨alive, isolated.living⟩, isolated.delivered⟩
  · rcases eq_or_ne session adapter.session with rfl | apart
    · have here := isolated.table adapter.session
      have same : ∀ other ∈ sharing process.adapters adapter.session,
          other.engine = adapter.engine := by
        intro other shared
        obtain ⟨inside, named⟩ := mem_filter.mp shared
        exact alone other inside (of_decide_eq_true named)
      have grown : sharing (adapter :: process.adapters) adapter.session =
          adapter :: sharing process.adapters adapter.session := by simp [sharing]
      rw [grown]
      simp only [Process.add, update_self]
      cases shared : sharing process.adapters adapter.session with
      | nil =>
        rw [shared] at here
        simp [here, entryOf]
      | cons first rest =>
        rw [shared] at here same
        simp [here, entryOf, same first mem_cons_self]
    · simpa [Process.add, sharing, apart, apart.symm] using isolated.table session
  · rcases eq_or_ne session adapter.session with rfl | apart
    · simpa [sharing] using room
    · simpa [sharing, apart.symm] using isolated.counted session
  · intro left inLeft right inRight same
    rcases mem_cons.mp inLeft with rfl | left' <;>
      rcases mem_cons.mp inRight with rfl | right'
    · rfl
    · exact (alone right right' same.symm).symm
    · exact alone left left' same
    · exact isolated.coherent left left' right right' same

theorem destroy (listed : adapter ∈ process.adapters) :
    Isolated { process.remove adapter.session with
      adapters := process.adapters.erase adapter } := by
  have entry := isolated.entry listed
  have kept : ∀ other ∈ process.adapters.erase adapter, other ∈ process.adapters :=
    fun other inside => mem_of_mem_erase inside
  simp only [Process.remove, entry]
  refine ⟨fun session => ?_, fun session =>
    Nat.lt_of_le_of_lt (erase_sublist.filter _).length_le (isolated.counted session),
    fun left inLeft right inRight => isolated.coherent left (kept left inLeft) right (kept right inRight),
    fun other inside => isolated.living other (kept other inside), isolated.delivered⟩
  have erased : sharing (process.adapters.erase adapter) session =
      (sharing process.adapters session).erase adapter := erase_filter.symm
  dsimp only
  rw [erased]
  rcases eq_or_ne session adapter.session with rfl | apart
  · have shared : adapter ∈ sharing process.adapters adapter.session :=
      mem_filter.mpr ⟨listed, decide_eq_true rfl⟩
    have fewer : UInt32.ofNat (sharing process.adapters adapter.session).length - 1 =
        .ofNat ((sharing process.adapters adapter.session).erase adapter).length := by
      rw [← length_erase_add_one shared, UInt32.ofNat_add]
      exact UInt32.add_sub_cancel _ _
    have small := Nat.lt_of_le_of_lt (erase_sublist (a := adapter)).length_le
      (isolated.counted adapter.session)
    rw [update_self, fewer]
    split
    · next gone =>
        rw [length_eq_zero_iff.mp ((ofNat_eq_zero small).mp gone)]
        rfl
    · next left =>
        refine (entryOf_engine (fun empty => left (by rw [empty]; rfl)) ?_).symm
        intro other inside
        obtain ⟨within, named⟩ := mem_filter.mp (mem_of_mem_erase inside)
        exact isolated.coherent other within adapter listed (of_decide_eq_true named)
  · rw [update_of_ne apart, erase_of_not_mem (by simp [sharing, apart.symm])]
    exact isolated.table session

omit isolated

end Isolated

theorem isolated_act {after : Process} (isolated : Isolated process)
    (taken : Acts act allowed process after) : Isolated after := by
  obtain ⟨action, may, acted⟩ := taken
  cases action with
  | createEngine =>
    cases acted
    refine { isolated with living := fun adapter listed => ?_ }
    simp [update_apply, isolated.living adapter listed]
  | createSession engine =>
    obtain ⟨_, same⟩ := ite_none_right_eq_some.mp acted
    cases same
    exact { isolated with }
  | createAdapter adapter =>
    obtain ⟨may_, same⟩ := ite_none_right_eq_some.mp acted
    cases same
    exact isolated.create may_.1 may.1 may.2
  | destroyAdapter adapter =>
    obtain ⟨listed, same⟩ := ite_none_right_eq_some.mp acted
    cases same
    exact isolated.destroy listed
  | destroyEngine engine =>
    obtain ⟨_, same⟩ := ite_none_right_eq_some.mp acted
    cases same
    refine { isolated with living := fun adapter listed => ?_ }
    simp [update_of_ne (may adapter listed), isolated.living adapter listed]
  | log adapter =>
    obtain ⟨listed, same⟩ := ite_none_right_eq_some.mp acted
    cases same
    simpa [Process.log, Process.find, isolated.entry listed] using isolated.deliver .log listed
  | eventPublish adapter =>
    obtain ⟨listed, same⟩ := ite_none_right_eq_some.mp acted
    cases same
    simpa [Process.eventPublish, Process.find, isolated.entry listed] using
      isolated.deliver .event listed

/-- What an operator logs or publishes reaches the services of its own engine, which is there, and
those of no other. -/
theorem engines_isolated (reached : Reachable (· = {}) (Acts act allowed) process) :
    (∀ delivery ∈ process.deliveries,
      delivery.receiver = delivery.sender.engine ∧ delivery.alive = true) ∧
    ∀ adapter ∈ process.adapters,
      process.log adapter = process.deliver .log adapter adapter.engine ∧
        process.eventPublish adapter = (.ok (), process.deliver .event adapter adapter.engine) := by
  have isolated : Isolated process := by
    refine reachable_invariant Isolated ?_ (fun _ _ _ => isolated_act) reached
    rintro _ rfl
    exact ⟨fun _ => rfl, fun _ => Nat.two_pow_pos 32, nofun, nofun, nofun⟩
  refine ⟨isolated.delivered, fun adapter listed => ?_⟩
  simp [Process.log, Process.eventPublish, Process.find, isolated.entry listed]

/-- A second engine takes over a session id when the first one has no adapter left for it. -/
theorem session_id_taken_over : ∃ process, Reachable (· = {}) (Acts act allowed) process ∧
      process.deliveries = [⟨.log, ⟨0, 1⟩, 0, true⟩, ⟨.event, ⟨1, 1⟩, 1, true⟩] ∧
      ∀ delivery ∈ process.deliveries,
        delivery.receiver = delivery.sender.engine ∧ delivery.alive = true := by
  have played : (play act allowed {} [.createEngine, .createEngine, .createSession 0,
      .createSession 1, .createAdapter ⟨0, 1⟩, .log ⟨0, 1⟩, .destroyAdapter ⟨0, 1⟩,
      .createAdapter ⟨1, 1⟩, .destroyEngine 0, .eventPublish ⟨1, 1⟩]).map Process.deliveries =
      some [⟨.log, ⟨0, 1⟩, 0, true⟩, ⟨.event, ⟨1, 1⟩, 1, true⟩] := by
    decide +kernel
  obtain ⟨process, reached, seen⟩ := reachable_seen played
  exact ⟨process, reached, seen, (engines_isolated reached).1⟩

/-- Two engines have a session 1 each: the record of the second one's operator reaches the first
engine, also when that engine is gone. -/
theorem record_crosses_engines :
    ([Action.createEngine, .createEngine, .createSession 0, .createSession 1,
      .createAdapter ⟨0, 1⟩, .createAdapter ⟨1, 1⟩, .log ⟨1, 1⟩, .destroyAdapter ⟨0, 1⟩,
      .destroyEngine 0, .log ⟨1, 1⟩].foldlM act {}).map Process.deliveries =
      some [⟨.log, ⟨1, 1⟩, 0, true⟩, ⟨.log, ⟨1, 1⟩, 0, false⟩] := by
  decide +kernel

end GraphEngine.SessionServices
