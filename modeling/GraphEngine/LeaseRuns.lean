import GraphEngine.LedgerAccounts
import GraphEngine.Runs
import GraphEngine.SessionLeases

/-!
The ledger with its lease objects (resource_ledger.h). A lease is moved and never
copied: at any time one object answers for it, and the destructor of that object
returns it. Ids and owners of leases are read by nobody and left out.
-/

namespace GraphEngine.LeaseRuns

open Values Runs OrderedMaps KeyedSums Ledgers Ledger LedgerAccounts List Option

/-- A `ResourceLease`; without a ledger it is not active. -/
structure Lease where
  active : Bool := false
  amounts : ResourceAmounts := []
  deriving DecidableEq

/-- The ledger, its count of leases and the lease objects in the order they were
constructed; a destroyed object is gone. History: the highest amount reserved so
far in each dimension. -/
structure Bank where
  ledger : Ledger := []
  liveLeases : Nat := 0
  objects : List (Option Lease) := []
  highest : Dimension → Nat := fun _ => 0

inductive Call where
  | construct
  | reserve (amounts : ResourceAmounts) (purpose : String)
  | commit (lease : Nat) (actual : ResourceAmounts) (purpose : String)
  | release (lease : Nat)
  | moveConstruct (source : Nat)
  | moveAssign (target source : Nat)
  | destroy (lease : Nat)
  deriving DecidableEq

def setCapacity (ledger : Ledger) (entry : Dimension × UInt64) : Ledger :=
  assign entry.1 { ledger.account entry.1 with capacity := some entry.2 } ledger

namespace Bank

/-- The constructor: the capacities are fixed up front. -/
def create (capacities : List (Dimension × UInt64)) : Bank where
  ledger := capacities.foldl setCapacity []

def object (bank : Bank) (index : Nat) : Option Lease := bank.objects[index]?.join

def put (bank : Bank) (index : Nat) (lease : Option Lease) : Bank :=
  { bank with objects := bank.objects.set index lease }

/-- `ReleaseLease` through `Release`, which does nothing the second time. -/
def releaseAt (bank : Bank) (index : Nat) (lease : Lease) : Bank :=
  if lease.active then
    { bank.put index (some {}) with
      ledger := bank.ledger.release lease.amounts
      liveLeases := if 0 < bank.liveLeases then bank.liveLeases - 1 else bank.liveLeases }
  else bank

/-- A call and its status. Calls on objects that do not exist are not made. -/
def call (bank : Bank) : Call → Option (Result Unit × Bank)
  | .construct => some (.ok (), { bank with objects := bank.objects ++ [some {}] })
  | .reserve amounts purpose =>
    match bank.ledger.reserve amounts purpose with
    | .error status => some (.error status, bank)
    | .ok (ledger, merged) => some (.ok (), { bank with
        ledger := ledger
        liveLeases := bank.liveLeases + 1
        objects := bank.objects ++ [some { active := true, amounts := merged }] })
  | .commit index actual purpose =>
    (bank.object index).map fun lease =>
      if !lease.active then (.error (.invalidArgument "lease is not active"), bank)
      else
        match bank.ledger.commitLease lease.amounts actual purpose with
        | .error status => (.error status, bank)
        | .ok (ledger, merged) => (.ok (), { bank.put index
            (some { active := true, amounts := merged }) with ledger := ledger })
  | .release index => (bank.object index).map fun lease => (.ok (), bank.releaseAt index lease)
  | .moveConstruct source =>
    (bank.object source).map fun lease => (.ok (), { bank with
      objects := bank.objects.set source (some {}) ++ [some lease] })
  | .moveAssign target source =>
    match bank.object target, bank.object source with
    | some old, some lease =>
      if target = source then some (.ok (), bank)
      else some (.ok (), ((bank.releaseAt target old).put target (some lease)).put source
        (some {}))
    | _, _ => none
  | .destroy index =>
    (bank.object index).map fun lease => (.ok (), (bank.releaseAt index lease).put index none)

def note (bank : Bank) : Bank :=
  { bank with
    highest := fun dimension =>
      max (bank.highest dimension) (reservedOf bank.ledger dimension) }

end Bank

open Bank

def holds (dimension : Dimension) : Option Lease → Nat
  | some lease => if lease.active then weight dimension lease.amounts else 0
  | none => 0

def lives : Option Lease → Nat
  | some lease => if lease.active then 1 else 0
  | none => 0

def Bank.total (bank : Bank) (dimension : Dimension) : Nat :=
  (bank.objects.map (holds dimension)).sum

def Bank.live (bank : Bank) : Nat := (bank.objects.map lives).sum

def Call.asked : Call → ResourceAmounts
  | .reserve amounts _ => amounts
  | .commit _ actual _ => actual
  | _ => []

/-- The sums of a call stay below 2^64: what it asks for, and what the leases hold
after it. -/
def Fits (made : Call) (next : Bank) : Prop :=
  ∀ dimension, weight dimension made.asked < 2 ^ 64 ∧ next.total dimension < 2 ^ 64

def Step (before after : Bank) : Prop :=
  ∃ made result next, before.call made = some (result, next) ∧ Fits made next ∧ after = next.note

variable {lease : Lease} {bank : Bank}

section Objects

variable {objects : List (Option Lease)} {old : Option Lease} {index : Nat}

theorem sum_set (count : Option Lease → Nat) (new : Option Lease)
    (found : objects[index]? = some old) :
    ((objects.set index new).map count).sum + count old = (objects.map count).sum + count new := by
  induction objects generalizing index with
  | nil => cases found
  | cons first rest ih =>
    cases index with
    | zero =>
      cases found
      simp only [set_cons_zero, map_cons, sum_cons]
      omega
    | succ index =>
      have later := ih found
      simp only [set_cons_succ, map_cons, sum_cons]
      omega

theorem object_found (found : bank.object index = some lease) :
    bank.objects[index]? = some (some lease) :=
  join_eq_some_iff.mp found

end Objects

structure Sound (bank : Bank) : Prop where
  ordered : ∀ lease, some lease ∈ bank.objects → Ordered lease.amounts
  reserved : ∀ dimension, reservedOf bank.ledger dimension = bank.total dimension
  within : ∀ dimension, Within bank.ledger dimension
  live : bank.liveLeases = bank.live
  marked : ∀ dimension, reservedOf bank.ledger dimension ≤ peakOf bank.ledger dimension

/-- A call keeps the invariant, and its high-water marks follow the reservations. -/
structure Serves (before after : Bank) : Prop where
  sound : Sound after
  highest : after.highest = before.highest
  peak : ∀ dimension, peakOf after.ledger dimension =
    max (peakOf before.ledger dimension) (reservedOf after.ledger dimension)

variable {after : Bank}

theorem serves_of_moves (ordered : ∀ lease, some lease ∈ after.objects → Ordered lease.amounts)
    (live : after.liveLeases = after.live) (highest : after.highest = bank.highest)
    (moves : ∀ dimension, Moves bank.ledger after.ledger dimension (after.total dimension)) :
    Serves bank after := by
  refine ⟨⟨ordered, fun dimension => (moves dimension).reserved,
    fun dimension => (moves dimension).within, live, ?_⟩, highest, ?_⟩
  · intro dimension
    rw [(moves dimension).peak, (moves dimension).reserved]
    exact le_max_right _ _
  · intro dimension
    rw [(moves dimension).peak, (moves dimension).reserved]

variable {ledger : Ledger} {new : Option Lease} {purpose : String}
  {amounts merged actual : ResourceAmounts} {made : Call} {dimension : Dimension} {next : Bank}

section Calls

variable (sound : Sound bank)

include sound

theorem serves_self : Serves bank bank := by
  refine serves_of_moves sound.ordered sound.live rfl ?_
  intro dimension
  rw [← sound.reserved dimension]
  exact moves_self (sound.marked dimension) (sound.within dimension)

variable {objects : List (Option Lease)}

theorem serves_returning {count : Nat} (lease : Lease)
    (ordered : ∀ other, some other ∈ objects → Ordered other.amounts)
    (returned : ledger = if lease.active then bank.ledger.release lease.amounts else bank.ledger)
    (counted : count = bank.liveLeases - lives (some lease))
    (sums : ∀ tally : Option Lease → Nat, tally (some {}) = 0 → tally none = 0 →
      (objects.map tally).sum + tally (some lease) = (bank.objects.map tally).sum) :
    Serves bank { bank with ledger := ledger, liveLeases := count, objects := objects } := by
  refine serves_of_moves ordered ?_ rfl ?_
  · have sum := sums lives rfl rfl
    have live := sound.live
    simp only [Bank.live] at live ⊢
    omega
  · intro dimension
    have sum := sums (holds dimension) rfl rfl
    have reserved := sound.reserved dimension
    simp only [total] at reserved ⊢
    subst returned
    cases active : lease.active with
    | true =>
      have left : (objects.map (holds dimension)).sum =
          reservedOf bank.ledger dimension - weight dimension lease.amounts := by
        simp only [holds, active, if_true] at sum
        omega
      rw [left]
      exact moves_release (sound.marked dimension) (sound.within dimension) lease.amounts
    | false =>
      have left : (objects.map (holds dimension)).sum = reservedOf bank.ledger dimension := by
        simp only [holds, active] at sum
        simp only [Bool.false_eq_true, if_false] at sum
        omega
      rw [left]
      exact moves_self (sound.marked dimension) (sound.within dimension)

theorem serves_moving (ordered : ∀ other, some other ∈ objects → Ordered other.amounts)
    (sums : ∀ tally : Option Lease → Nat, tally (some {}) = 0 →
      (objects.map tally).sum = (bank.objects.map tally).sum) :
    Serves bank { bank with objects := objects } := by
  refine serves_returning sound {} ordered rfl rfl ?_
  intro tally inactive _
  rw [inactive]
  exact sums tally inactive

omit sound in
theorem releaseAt_put (index : Nat) (lease : Lease) (new : Option Lease) :
    (bank.releaseAt index lease).put index new =
      { bank with
        ledger := if lease.active then bank.ledger.release lease.amounts else bank.ledger
        liveLeases := bank.liveLeases - lives (some lease)
        objects := bank.objects.set index new } := by
  unfold releaseAt
  cases active : lease.active with
  | false => simp [put, lives, active]
  | true =>
    have count : (if 0 < bank.liveLeases then bank.liveLeases - 1 else bank.liveLeases) =
        bank.liveLeases - 1 := by
      split <;> omega
    simp [put, lives, active, count]

omit sound in
theorem ordered_blank : ∀ lease, some ({} : Lease) = some lease → Ordered lease.amounts := by
  rintro _ ⟨⟩
  exact List.Pairwise.nil

variable {index : Nat}

variable (found : bank.object index = some lease)
include found

theorem ordered_object : ∀ other, some lease = some other → Ordered other.amounts := by
  rintro _ ⟨⟩
  exact sound.ordered lease (mem_of_getElem? (object_found found))

omit found

omit sound in
theorem ordered_set (ordered : ∀ lease, some lease ∈ objects → Ordered lease.amounts)
    (fine : ∀ lease, new = some lease → Ordered lease.amounts) :
    ∀ lease, some lease ∈ objects.set index new → Ordered lease.amounts := by
  intro lease member
  rcases mem_or_eq_of_mem_set member with kept | same
  · exact ordered lease kept
  · exact fine lease same.symm

omit sound in
theorem ordered_append (ordered : ∀ lease, some lease ∈ objects → Ordered lease.amounts)
    (fine : ∀ lease, new = some lease → Ordered lease.amounts) :
    ∀ lease, some lease ∈ objects ++ [new] → Ordered lease.amounts := by
  intro lease member
  rcases List.mem_append.mp member with kept | last
  · exact ordered lease kept
  · exact fine lease (List.mem_singleton.mp last).symm

include found

theorem serves_emptied (empty : new = some {} ∨ new = none) :
    Serves bank ((bank.releaseAt index lease).put index new) := by
  rw [releaseAt_put]
  refine serves_returning sound lease (ordered_set sound.ordered ?_) rfl rfl ?_
  · rcases empty with rfl | rfl
    · exact ordered_blank
    · exact nofun
  · intro tally inactive gone
    have sum := sum_set tally new (object_found found)
    rcases empty with rfl | rfl <;> omega

theorem serves_release : Serves bank (bank.releaseAt index lease) := by
  cases active : lease.active with
  | false =>
    have same : bank.releaseAt index lease = bank := by simp [releaseAt, active]
    rw [same]
    exact serves_self sound
  | true =>
    have same : bank.releaseAt index lease = (bank.releaseAt index lease).put index (some {}) := by
      simp [releaseAt, active, put]
    rw [same]
    exact serves_emptied sound found (.inl rfl)

omit found

theorem serves_moveAssign {target source : Nat} {old : Lease} (held : bank.object target = some old)
    (found : bank.object source = some lease) (distinct : target ≠ source) :
    Serves bank (((bank.releaseAt target old).put target (some lease)).put source (some {})) := by
  rw [releaseAt_put]
  refine serves_returning sound old (ordered_set (ordered_set sound.ordered
    (ordered_object sound found)) ordered_blank) rfl rfl ?_
  intro tally inactive _
  have stays : (bank.objects.set target (some lease))[source]? = some (some lease) := by
    rw [List.getElem?_set_ne distinct]
    exact object_found found
  have first := sum_set tally (some lease) (object_found held)
  have second := sum_set tally (some {}) stays
  dsimp only
  omega

theorem serves_moveConstruct {source : Nat} (found : bank.object source = some lease) :
    Serves bank { bank with objects := bank.objects.set source (some {}) ++ [some lease] } := by
  refine serves_moving sound (ordered_append (ordered_set sound.ordered ordered_blank)
    (ordered_object sound found)) ?_
  intro tally inactive
  have sum := sum_set tally (some {}) (object_found found)
  rw [map_append, sum_append]
  simp only [map_cons, map_nil, sum_cons, sum_nil]
  omega

theorem serves_reserve (reserved : next = { bank with
      ledger := ledger
      liveLeases := bank.liveLeases + 1
      objects := bank.objects ++ [some { active := true, amounts := merged }] })
    (fits : Fits (.reserve amounts purpose) next)
    (done : bank.ledger.reserve amounts purpose = .ok (ledger, merged)) : Serves bank next := by
  obtain ⟨-, rfl⟩ := reserve_ok done
  subst reserved
  refine serves_of_moves (ordered_append sound.ordered ?_) ?_ rfl ?_
  · rintro _ ⟨⟩
    exact merge_ordered amounts
  · simp [live, lives, sound.live]
  · intro dimension
    obtain ⟨asked, room⟩ := fits dimension
    have total : total { bank with
          ledger := ledger
          liveLeases := bank.liveLeases + 1
          objects := bank.objects ++ [some { active := true, amounts := mergeAmounts amounts }] }
        dimension = reservedOf bank.ledger dimension + weight dimension amounts := by
      rw [sound.reserved dimension]
      simp [total, holds, weight_mergeAmounts (show weight dimension amounts < _ from asked)]
    rw [total] at room ⊢
    exact moves_reserve (sound.marked dimension) (sound.within dimension) room done

include found

theorem serves_commit (active : lease.active = true)
    (resized : next = { bank.put index (some { active := true, amounts := merged }) with
      ledger := ledger }) (fits : Fits (.commit index actual purpose) next)
    (done : bank.ledger.commitLease lease.amounts actual purpose = .ok (ledger, merged)) :
    Serves bank next := by
  obtain ⟨_, -, -, rfl⟩ := commitLease_ok done
  subst resized
  refine serves_of_moves (ordered_set sound.ordered ?_) ?_ rfl ?_
  · rintro _ ⟨⟩
    exact merge_ordered actual
  · have sum := sum_set lives (some ⟨true, mergeAmounts actual⟩) (object_found found)
    have live := sound.live
    simp only [Bank.live, Bank.put, lives, active] at live sum ⊢
    omega
  · intro dimension
    obtain ⟨asked, room⟩ := fits dimension
    have sum := sum_set (holds dimension) (some ⟨true, mergeAmounts actual⟩) (object_found found)
    have held : holds dimension (some lease) ≤ (bank.objects.map (holds dimension)).sum :=
      le_sum_of_mem (mem_map_of_mem (mem_of_getElem? (object_found found)))
    have reserved := sound.reserved dimension
    have merges := weight_mergeAmounts (show weight dimension actual < _ from asked)
    simp only [holds, active, if_true] at sum held
    simp only [total, put] at reserved room ⊢
    have total : ((bank.objects.set index (some ⟨true, mergeAmounts actual⟩)).map
          (holds dimension)).sum =
        reservedOf bank.ledger dimension - weight dimension lease.amounts +
          weight dimension actual := by
      omega
    rw [total] at room ⊢
    exact moves_commitLease (sound.marked dimension) (sound.within dimension)
      (sound.ordered lease (mem_of_getElem? (object_found found))) (reserved ▸ held) asked
      room done

omit found

theorem serves_call {result : Result Unit} (fits : Fits made next)
    (done : bank.call made = some (result, next)) : Serves bank next := by
  cases made with
  | construct =>
    cases done
    refine serves_moving sound (ordered_append sound.ordered ordered_blank) ?_
    intro tally inactive
    simp [inactive]
  | reserve amounts purpose =>
    simp only [call] at done
    split at done
    · cases done
      exact serves_self sound
    rename_i ledger merged reserved
    cases done
    exact serves_reserve sound rfl fits reserved
  | commit index actual purpose =>
    obtain ⟨lease, found, called⟩ := map_eq_some_iff.mp done
    split at called
    · cases called
      exact serves_self sound
    rename_i inactive
    have active : lease.active = true := by simpa using inactive
    split at called
    · cases called
      exact serves_self sound
    rename_i ledger merged committed
    cases called
    exact serves_commit sound found active rfl fits committed
  | release index =>
    obtain ⟨lease, found, called⟩ := map_eq_some_iff.mp done
    cases called
    exact serves_release sound found
  | moveConstruct source =>
    obtain ⟨lease, found, called⟩ := map_eq_some_iff.mp done
    cases called
    exact serves_moveConstruct sound found
  | moveAssign target source =>
    simp only [call] at done
    split at done
    · next old lease held found =>
        split at done
        · cases done
          exact serves_self sound
        rename_i distinct
        cases done
        exact serves_moveAssign sound held found distinct
    · cases done
  | destroy index =>
    obtain ⟨lease, found, called⟩ := map_eq_some_iff.mp done
    cases called
    exact serves_emptied sound found (.inr rfl)

omit sound in
theorem call_refused {status : Status} (done : bank.call made = some (.error status, next)) :
    next = bank := by
  cases made with
  | construct => cases done
  | reserve amounts purpose =>
    simp only [call] at done
    split at done <;> cases done
    rfl
  | commit index actual purpose =>
    obtain ⟨lease, -, called⟩ := map_eq_some_iff.mp done
    split at called
    · cases called
      rfl
    · split at called <;> cases called
      rfl
  | release index | moveConstruct source | destroy index =>
    obtain ⟨lease, -, called⟩ := map_eq_some_iff.mp done
    cases called
  | moveAssign target source =>
    simp only [call] at done
    split at done
    · split at done <;> cases done
    · cases done

include found

theorem call_shrinks (active : lease.active = true)
    (below : ∀ dimension, weight dimension actual ≤ weight dimension lease.amounts) :
    ∃ next, bank.call (.commit index actual purpose) = some (.ok (), next) := by
  have ordered := sound.ordered lease (mem_of_getElem? (object_found found))
  have merged : ∀ dimension, weight dimension (mergeAmounts actual) ≤
      weight dimension lease.amounts := by
    intro dimension
    rw [mergeAmounts, weight_merge]
    exact (Nat.mod_le _ _).trans (below dimension)
  obtain ⟨after, committed⟩ := commitLease_shrinks bank.ledger purpose
    (SessionLeases.growth_nil ordered (merge_ordered actual) merged)
  simp only [call, found, map_some, active, committed]
  exact ⟨_, rfl⟩

end Calls

def Created (bank : Bank) : Prop := ∃ capacities, bank = create capacities

theorem account_setCapacity (ledger : Ledger) (entry : Dimension × UInt64) (dimension : Dimension) :
    reservedOf (setCapacity ledger entry) dimension = reservedOf ledger dimension ∧
      peakOf (setCapacity ledger entry) dimension = peakOf ledger dimension := by
  simp only [reservedOf, peakOf, setCapacity, account, find_assign]
  split
  · next same =>
      subst same
      exact ⟨rfl, rfl⟩
  · exact ⟨rfl, rfl⟩

theorem created_empty (capacities : List (Dimension × UInt64))
    (reserved : reservedOf ledger dimension = 0) (peak : peakOf ledger dimension = 0) :
    reservedOf (capacities.foldl setCapacity ledger) dimension = 0 ∧
      peakOf (capacities.foldl setCapacity ledger) dimension = 0 := by
  refine foldlRecOn (motive := fun ledger => reservedOf ledger dimension = 0 ∧
    peakOf ledger dimension = 0) capacities _ ⟨reserved, peak⟩ fun ledger empty entry _ => ?_
  obtain ⟨first, second⟩ := account_setCapacity ledger entry dimension
  exact ⟨first.trans empty.1, second.trans empty.2⟩

/-- The invariant with the history: the high-water mark is the highest reservation. -/
structure Recorded (bank : Bank) : Prop extends Sound bank where
  peak : ∀ dimension, peakOf bank.ledger dimension = bank.highest dimension

theorem recorded_created (created : Created bank) : Recorded bank := by
  obtain ⟨capacities, rfl⟩ := created
  have empty := fun dimension => created_empty capacities
    (show reservedOf [] dimension = 0 from rfl) (show peakOf [] dimension = 0 from rfl)
  refine ⟨⟨nofun, fun dimension => (empty dimension).1, ?_, rfl, ?_⟩, fun dimension =>
    (empty dimension).2⟩
  · intro dimension capacity _
    exact (empty dimension).1.trans_le (Nat.zero_le _)
  · intro dimension
    exact (empty dimension).1.trans_le (Nat.zero_le _)

theorem recorded_step {before : Bank} (recorded : Recorded before) (taken : Step before after) :
    Recorded after := by
  obtain ⟨made, result, next, done, fits, rfl⟩ := taken
  have serves := serves_call recorded.toSound fits done
  obtain ⟨ordered, reserved, within, live, marked⟩ := serves.sound
  refine ⟨⟨ordered, reserved, within, live, marked⟩, ?_⟩
  intro dimension
  simp only [note]
  rw [serves.peak dimension, serves.highest, recorded.peak dimension]

theorem reached_recorded (reached : Reachable Created Step bank) : Recorded bank :=
  reachable_invariant Recorded (fun _ => recorded_created)
    (fun _ _ _ recorded taken => recorded_step recorded taken) reached

/-- In every run of reservations, resizes, releases, moves and destructions, each
account matches the leases that are alive and stays within its capacity; a refused
call changes nothing, a resize that only shrinks is granted, and the high-water
mark is the highest reservation there was. -/
theorem accounts_match_leases {bank : Bank} (reached : Reachable Created Step bank) :
    (∀ dimension, reservedOf bank.ledger dimension = bank.total dimension) ∧
    (∀ dimension, Within bank.ledger dimension) ∧ bank.liveLeases = bank.live ∧
    (∀ made status next, bank.call made = some (.error status, next) → next = bank) ∧
    (∀ index lease actual purpose, bank.object index = some lease → lease.active = true →
      (∀ dimension, weight dimension actual ≤ weight dimension lease.amounts) →
      ∃ next, bank.call (.commit index actual purpose) = some (.ok (), next)) ∧
    ∀ dimension, peakOf bank.ledger dimension = bank.highest dimension := by
  have recorded := reached_recorded reached
  refine ⟨recorded.reserved, recorded.within, recorded.live, ?_, ?_, recorded.peak⟩
  · intro made status next refused
    exact call_refused refused
  · intro index lease actual purpose found active below
    exact call_shrinks recorded.toSound found active below

/-! Runs that can be evaluated: one bound for all dimensions. -/

def sumOf (amounts : ResourceAmounts) : Nat := (amounts.map fun amount => amount.2.toNat).sum

def small (made : Call) (next : Bank) : Bool :=
  sumOf made.asked < 2 ^ 64 &&
    (next.objects.map fun object => object.elim 0 fun lease => sumOf lease.amounts).sum < 2 ^ 64

def Bank.run (bank : Bank) : List Call → Option Bank
  | [] => some bank
  | made :: rest => do
      let (_, next) ← bank.call made
      if small made next then next.note.run rest else none

theorem fits_of_small (few : small made next = true) : Fits made next := by
  simp only [small, Bool.and_eq_true, decide_eq_true_eq] at few
  intro dimension
  refine ⟨(weight_le_total dimension made.asked).trans_lt few.1, lt_of_le_of_lt ?_ few.2⟩
  refine sum_le_sum fun object _ => ?_
  cases object with
  | none => exact le_rfl
  | some lease =>
    simp only [holds]
    split
    · exact weight_le_total dimension lease.amounts
    · exact Nat.zero_le _

theorem run_reached {calls : List Call} (reached : Reachable Created Step bank)
    (done : bank.run calls = some after) : Reachable Created Step after := by
  induction calls generalizing bank with
  | nil =>
    cases done
    exact reached
  | cons made rest ih =>
    obtain ⟨⟨result, next⟩, called, later⟩ := bind_eq_some_iff.mp done
    dsimp only at later
    split at later
    · next few => exact ih (reached.next ⟨made, result, next, called, fits_of_small few, rfl⟩) later
    · cases later

def leaseCalls : List Call :=
  let memory (amount : UInt64) : ResourceAmounts := [(⟨.hostMemory, -1⟩, amount)]
  [.reserve (memory 40) "first", .reserve (memory 30) "second", .reserve (memory 40) "third",
    .commit 0 (memory 60) "", .moveConstruct 0, .destroy 0, .commit 2 (memory 10) "", .release 2]

theorem two_leases_match : ∃ bank, (create [(⟨.hostMemory, -1⟩, 100)]).run leaseCalls = some bank ∧
    reservedOf bank.ledger ⟨.hostMemory, -1⟩ = 30 ∧ bank.total ⟨.hostMemory, -1⟩ = 30 ∧
    bank.liveLeases = 1 ∧ bank.live = 1 ∧
    peakOf bank.ledger ⟨.hostMemory, -1⟩ = 90 ∧ bank.highest ⟨.hostMemory, -1⟩ = 90 := by
  have ends : ((create [(⟨.hostMemory, -1⟩, 100)]).run leaseCalls).map (fun bank =>
      (reservedOf bank.ledger ⟨.hostMemory, -1⟩, bank.liveLeases,
        peakOf bank.ledger ⟨.hostMemory, -1⟩)) = some (30, 1, 90) := by
    decide +kernel
  obtain ⟨bank, ran, measured⟩ := map_eq_some_iff.mp ends
  simp only [Prod.mk.injEq] at measured
  obtain ⟨thirty, one, ninety⟩ := measured
  obtain ⟨reserved, -, live, -, -, peak⟩ :=
    accounts_match_leases (run_reached (.initial ⟨_, rfl⟩) ran)
  exact ⟨bank, ran, thirty, reserved _ ▸ thirty, one, live ▸ one, ninety, peak _ ▸ ninety⟩

end GraphEngine.LeaseRuns
