import GraphEngine.EdgeQueues
import GraphEngine.NodeRuntimes
import GraphEngine.StatePrograms
import Mathlib.Data.UInt
import Mathlib.Logic.Function.Basic

/-!
`InputBinding` of input_binding.cpp. An acquisition is a program over the binding
and its edges. The binding lock does not keep producers out, so every look at an
edge comes after the next batch of a script of producer moves; an empty script is
a call that nobody disturbs. What is taken off the edges is recorded in order,
with its fate, and a look is marked stale by an eviction on its edge.
-/

namespace GraphEngine.InputBindings

open Values GraphSpecs NodeRuntimes EdgeQueues StatePrograms

structure AlignedOptions where
  windowNs : Int := 40000000
  referencePort : Option String := none
  deriving DecidableEq

structure InputBatch where
  ports : List String := []
  packets : List Packet := []
  events : List Packet := []
  eventPorts : List String := []
  deriving DecidableEq

inductive Fate where
  | delivered | event | marker | late | stale
  deriving DecidableEq

structure Removal where
  port : Nat
  edge : ChannelRef
  packet : Packet
  deriving DecidableEq

inductive Move where
  | push (packet : Packet)
  | injectEos (marker : Packet)
  | markDraining
  deriving DecidableEq

def Move.apply (edge : EdgeQueue) : Move → EdgeQueue
  | .push packet => (edge.push packet).2
  | .injectEos marker => (edge.injectEos marker).2
  | .markDraining => edge.markDraining

def Move.evicts (edge : EdgeQueue) : Move → Bool
  | .push packet => (edge.push packet).1 = .acceptedDroppedOldest
  | _ => false

structure Channels where
  edges : ChannelRef → EdgeQueue
  script : List (List (ChannelRef × Move)) := []
  /-- Edges that evicted a packet since they were last looked at. -/
  unseen : ChannelRef → Bool := fun _ => false

structure Acquisition extends Channels where
  ports : List InputPortBinding
  policy : SyncPolicy
  aligned : AlignedOptions := {}
  eosPorts : List String := []
  lateDropped : UInt64 := 0
  staleDropped : UInt64 := 0
  batch : InputBatch := {}
  removed : List Removal := []
  fates : List Fate := []
  /-- Some packet was taken off an edge that had evicted one since the last look. -/
  raced : Bool := false

abbrev Acquire := Program Acquisition

def disturb (channels : Channels) (disturbance : ChannelRef × Move) : Channels :=
  let edge := channels.edges disturbance.1
  { channels with
    edges := Function.update channels.edges disturbance.1 (disturbance.2.apply edge)
    unseen := Function.update channels.unseen disturbance.1
      (channels.unseen disturbance.1 || disturbance.2.evicts edge) }

def advance (channels : Channels) : Channels :=
  match channels.script with
  | [] => channels
  | moves :: rest => moves.foldl disturb { channels with script := rest }

def interfere (state : Acquisition) : Acquisition :=
  { state with toChannels := advance state.toChannels }

def isEmpty (ref : ChannelRef) : Acquire Bool := do
  modify interfere
  return ((← get).edges ref).queue.isEmpty

def isRetired (ref : ChannelRef) : Acquire Bool := do
  modify interfere
  return ((← get).edges ref).state = .retired

def look (ref : ChannelRef) (state : Acquisition) : Acquisition :=
  { state with unseen := Function.update state.unseen ref false }

def peek (ref : ChannelRef) : Acquire (Option Packet) := do
  modify interfere
  modify (look ref)
  return ((← get).edges ref).peek

/-- Takes the head off the edge, for the port at this position. -/
def remove (port : Nat) (ref : ChannelRef) (packet : Packet) (state : Acquisition) : Acquisition :=
  { state with
    edges := Function.update state.edges ref (state.edges ref).pop.2
    removed := state.removed ++ [⟨port, ref, packet⟩]
    raced := state.raced || state.unseen ref }

def pop (port : Nat) (ref : ChannelRef) : Acquire (Option Packet) := do
  modify interfere
  match ((← get).edges ref).peek with
  | none => return none
  | some packet =>
    modify (remove port ref packet)
    return some packet

def retire (ref : ChannelRef) : Acquire Unit := do
  modify interfere
  modify fun state => { state with
    edges := Function.update state.edges ref ((state.edges ref).markRetired false) }

def portName (state : Acquisition) (port : Nat) : String :=
  (state.ports[port]?.map InputPortBinding.port).getD ""

def settle (fate : Fate) : Acquire Unit :=
  modify fun state => { state with fates := state.fates ++ [fate] }

def forget (port : Nat) (ref : ChannelRef) : Acquire Unit :=
  modify fun state => { state with ports := state.ports.modify port fun binding =>
    { binding with predecessors := binding.predecessors.filter fun other => other ≠ ref } }

def endPort (port : Nat) : Acquire Unit :=
  modify fun state => { state with
    eosPorts := state.eosPorts.insert (portName state port) }

def countStale : Acquire Unit :=
  modify fun state => { state with staleDropped := state.staleDropped + 1 }

def countLate : Acquire Unit :=
  modify fun state => { state with lateDropped := state.lateDropped + 1 }

def addEvent (port : Nat) (packet : Packet) : Acquire Unit :=
  modify fun state => { state with
    fates := state.fates ++ [.event]
    batch := { state.batch with
      events := state.batch.events ++ [packet]
      eventPorts := state.batch.eventPorts ++ [portName state port] } }

def deliver (port : Nat) (packet : Packet) : Acquire Unit :=
  modify fun state => { state with
    fates := state.fates ++ [.delivered]
    batch := { state.batch with
      packets := state.batch.packets ++ [packet]
      ports := state.batch.ports ++ [portName state port] } }

/-- The first predecessor that holds something or may still get something. -/
def firstLive : List ChannelRef → Acquire (Option ChannelRef)
  | [] => pure none
  | ref :: rest => do
      if !(← isEmpty ref) then pure (some ref)
      else if !(← isRetired ref) then pure (some ref)
      else firstLive rest

def active (port : Nat) : Acquire (Option ChannelRef) := do
  match (← get).ports[port]? with
  | none => pure none
  | some binding =>
    match ← firstLive binding.predecessors with
    | some ref => pure (some ref)
    | none => pure binding.edge

def take (port : Nat) : Acquire (Option Packet) := do
  match ← active port with
  | none => pure none
  | some ref => pop port ref

def isPredecessor (state : Acquisition) (port : Nat) (ref : ChannelRef) : Bool :=
  state.ports[port]?.bind InputPortBinding.edge ≠ some ref

def isEos (state : Acquisition) (port : Nat) : Bool := portName state port ∈ state.eosPorts

/-- Consumes the marker at the head: a drained predecessor is retired and
forgotten, the port's own edge ends the port. -/
def takeMarker (port : Nat) (ref : ChannelRef) (predecessor : Bool) : Acquire Unit := do
  if (← pop port ref).isSome then settle .marker
  if predecessor then do
    retire ref
    forget port ref
  else endPort port

def takeEvent (port : Nat) : Acquire Unit := do
  match ← take port with
  | some packet => addEvent port packet
  | none => pure ()

/-- Data after the marker on the same port is dropped and counted. -/
def dropStale (port : Nat) (ref : ChannelRef) : Acquire Unit := do
  if (← pop port ref).isSome then settle .stale
  countStale

/-- Takes the control packets in front of a port's first data packet, which it
returns without taking it. -/
def skimHead : Nat → Nat → Acquire (Option Packet)
  | 0, _ => failure
  | fuel + 1, port => do
      match ← active port with
      | none => pure none
      | some ref =>
        let predecessor := isPredecessor (← get) port ref
        match ← peek ref with
        | none =>
          if predecessor then
            -- Emptied by a fast retire, else still draining.
            if ← isRetired ref then do
              forget port ref
              skimHead fuel port
            else pure none
          else pure none
        | some head =>
          if head.eos then do
            takeMarker port ref predecessor
            skimHead fuel port
          else if head.event then do
            takeEvent port
            skimHead fuel port
          else if !predecessor && isEos (← get) port then do
            dropStale port ref
            skimHead fuel port
          else pure (some head)

section Acquire

-- The number of rounds a loop may take.
variable (bound : Nat)

/-- A batch of events alone is a batch. -/
def finish : Acquire (Option InputBatch) := do
  let batch := (← get).batch
  return if batch.events = [] then none else some batch

def isRequired (state : Acquisition) (port : Nat) : Bool :=
  (state.ports[port]?.map InputPortBinding.required).getD false

def choose (state : Acquisition) (heads : List (Option Packet)) : Option Nat :=
  let ready := (List.range state.ports.length).filter fun port =>
    (heads[port]?.join).isSome
  (ready.find? fun port => isRequired state port).or
    (ready.find? fun port => !isRequired state port)

def skimPorts : List Nat → Acquire (List (Option Packet))
  | [] => pure []
  | port :: rest => do
      let head ← skimHead bound port
      let heads ← skimPorts rest
      pure (head :: heads)

def acquireAny : Acquire (Option InputBatch) := do
  let heads ← skimPorts bound (List.range (← get).ports.length)
  match choose (← get) heads with
  | none => finish
  | some port =>
    match ← take port with
    | none => finish
    | some packet => do
        deliver port packet
        return some (← get).batch

def findTrigger : List Nat → Acquire (Option Nat)
  | [] => pure none
  | port :: rest => do
      if isRequired (← get) port then
        match ← skimHead bound port with
        | some _ => pure (some port)
        | none => findTrigger rest
      else findTrigger rest

/-- Takes data packets up to the next control packet and keeps the newest. -/
def takeNewest (port : Nat) : Nat → Option Packet → Acquire (Option Packet)
  | 0, _ => failure
  | fuel + 1, newest => do
      match ← active port with
      | none => pure newest
      | some ref =>
        match ← peek ref with
        | none => pure newest
        | some head =>
          -- Control packets wait for the next acquire.
          if head.eos || head.event then pure newest
          else
            match ← take port with
            | none => pure newest
            | some taken => do
                if newest.isSome then do
                  countStale
                  settle .stale
                takeNewest port fuel (some taken)

def serveNewest (port : Nat) : Acquire Unit := do
  match ← skimHead bound port with
  | none => pure ()
  | some _ =>
    match ← takeNewest port bound none with
    | none => pure ()
    | some packet => deliver port packet

def serveOthers (trigger : Nat) : List Nat → Acquire Unit
  | [] => pure ()
  | port :: rest => do
      if port ≠ trigger then serveNewest bound port
      serveOthers trigger rest

def acquireLatest : Acquire (Option InputBatch) := do
  let ports := List.range (← get).ports.length
  match ← findTrigger bound ports with
  | none => finish
  | some trigger =>
    match ← take trigger with
    | none => finish
    | some packet => do
        deliver trigger packet
        serveOthers bound trigger ports
        return some (← get).batch

/-- The port named by the options; of several, the last one. -/
def fixedReference (state : Acquisition) : Option Nat :=
  state.aligned.referencePort.bind fun name =>
    ((List.range state.ports.length).filter fun port => portName state port = name).getLast?

def earliestHead (best : Option (Nat × Packet)) : List Nat → Acquire (Option (Nat × Packet))
  | [] => pure best
  | port :: rest => do
      if isRequired (← get) port then
        match ← skimHead bound port with
        | none => earliestHead best rest
        | some head =>
          if best.all fun found => head.pts < found.2.pts then
            earliestHead (some (port, head)) rest
          else earliestHead best rest
      else earliestHead best rest

def dropData (port : Nat) : Nat → Acquire Unit
  | 0 => failure
  | fuel + 1 => do
      match ← skimHead bound port with
      | none => pure ()
      | some _ =>
        match ← take port with
        | none => pure ()
        | some _ => do
            settle .late
            countLate
            dropData port fuel

/-- The reference has ended: every port ends and leftovers are dropped. -/
def endAll : List Nat → Acquire Unit
  | [] => pure ()
  | port :: rest => do
      if ((← get).ports[port]?.bind InputPortBinding.edge).isSome then dropData bound port bound
      endPort port
      endAll rest

def skipLate (port : Nat) (target window : Int) : Nat → Option Packet → Acquire (Option Packet)
  | 0, _ => failure
  | fuel + 1, head =>
    match head with
    | none => pure none
    | some packet =>
      if packet.pts < int64 (target - window) then do
        match ← take port with
        | none => pure (some packet)
        | some _ => do
            settle .late
            countLate
            let next ← skimHead bound port
            skipLate port target window fuel next
      else pure (some packet)

structure Classified where
  matched : List Nat := []
  wait : Bool := false
  referenceIsLate : Bool := false
  deriving DecidableEq

def classify (target window : Int) (reference : Nat) (found : Classified) :
    List Nat → Acquire Classified
  | [] => pure found
  | port :: rest => do
      if port = reference then classify target window reference found rest
      else
        let first ← skimHead bound port
        match ← skipLate bound port target window bound first with
        | none =>
          let state ← get
          let waits := isRequired state port && !isEos state port
          classify target window reference { found with wait := found.wait || waits } rest
        | some head =>
          if head.pts ≤ int64 (target + window) then
            classify target window reference
              { found with matched := found.matched ++ [port] } rest
          else
            let ahead := isRequired (← get) port
            classify target window reference
              { found with referenceIsLate := found.referenceIsLate || ahead } rest

def deliverPorts (chosen : List Nat) : List Nat → Acquire Unit
  | [] => pure ()
  | port :: rest => do
      if port ∈ chosen then
        match ← take port with
        | none => pure ()
        | some packet => deliver port packet
      deliverPorts chosen rest

def referenceHead (fixed : Option Nat) (ports : List Nat) : Acquire (Option (Nat × Packet)) := do
  match fixed with
  | some port =>
    match ← skimHead bound port with
    | some head => pure (some (port, head))
    | none => do
        if isEos (← get) port then endAll bound ports
        pure none
  | none => earliestHead bound none ports

def alignRounds : Nat → Acquire (Option InputBatch)
  | 0 => failure
  | fuel + 1 => do
      let start ← get
      let ports := List.range start.ports.length
      let fixed := fixedReference start
      match ← referenceHead bound fixed ports with
      | none => finish
      | some (reference, head) =>
        let found ← classify bound head.pts start.aligned.windowNs reference {} ports
        if found.referenceIsLate && fixed.isNone then
          match ← take reference with
          | none => finish
          | some _ => do
              settle .late
              countLate
              alignRounds fuel
        else if found.wait then finish
        else do
          deliverPorts (reference :: found.matched) ports
          let batch := (← get).batch
          if batch.packets = [] then finish else return some batch

def acquireAligned : Acquire (Option InputBatch) := alignRounds bound bound

def tryAcquire : Acquire (Option InputBatch) := do
  match (← get).policy with
  | .any => acquireAny bound
  | .latest => acquireLatest bound
  | .aligned => acquireAligned bound

end Acquire

def findPort (ports : List InputPortBinding) (name : String) : Option InputPortBinding :=
  KeyedLists.lookup InputPortBinding.port name ports

/-- The marker of the port's edge was consumed and nothing is queued behind it. -/
def hasEnded (state : Acquisition) (old : InputPortBinding) : Bool :=
  old.port ∈ state.eosPorts && old.edge.any fun ref => (state.edges ref).queue.isEmpty

def isRewired (state : Acquisition) (next : InputPortBinding) : Bool :=
  (findPort state.ports next.port).any fun old => old.edge ≠ next.edge

/-- The old edge keeps feeding a rewired port until its marker. -/
def rebound (state : Acquisition) (next : InputPortBinding) : InputPortBinding :=
  match findPort state.ports next.port with
  | none => next
  | some old =>
    let fading := if old.edge = next.edge || hasEnded state old then [] else old.edge.toList
    { next with predecessors := old.predecessors ++ fading }

def endedEdges (state : Acquisition) (next : List InputPortBinding) : List ChannelRef :=
  next.flatMap fun binding =>
    match findPort state.ports binding.port with
    | none => []
    | some old =>
      if old.edge ≠ binding.edge && hasEnded state old then old.edge.toList else []

/-- Nobody will consume the edges of a port that vanished. -/
def vanishedEdges (state : Acquisition) (next : List InputPortBinding) : List ChannelRef :=
  (state.ports.filter fun old => (findPort next old.port).isNone).flatMap fun old =>
    old.edge.toList ++ old.predecessors

/-- `Rebind`; no two ports have one name. -/
def rebind (next : List InputPortBinding) (policy : SyncPolicy) (aligned : AlignedOptions)
    (state : Acquisition) : Acquisition :=
  { state with
    edges := fun ref =>
      if ref ∈ vanishedEdges state next then (state.edges ref).markRetired true
      else if ref ∈ endedEdges state next then (state.edges ref).markRetired false
      else state.edges ref
    ports := next.map (rebound state)
    -- A rewired port is live again, a vanished one forgets that it ended.
    eosPorts := state.eosPorts.filter fun name =>
      (findPort next name).any fun binding => !isRewired state binding
    policy := policy
    aligned := aligned }

end GraphEngine.InputBindings
