import GraphEngine.Runs
import Mathlib.Data.List.Basic

/-!
Threads that run code over a shared world, one atomic operation at a time, in any
order. Operations that the world does not allow yet block their thread; what the
world leaves open is decided by a choice. New threads arrive from outside.
-/

namespace GraphEngine.Interleavings

open Runs

variable {Op : Type} {Answer : Op → Type} {World Name Choice Arrival Value Other Item : Type}

/-- Sequential code. A named procedure is looked up when the call is reached, so
that procedures may call each other in circles. -/
inductive Code {Op : Type} (Answer : Op → Type) (Name Value : Type) : Type where
  | done (value : Value)
  | act (op : Op) (next : Answer op → Code Answer Name Value)
  | call (name : Name) (next : Code Answer Name Value)

namespace Code

def bind (next : Value → Code Answer Name Other) : Code Answer Name Value → Code Answer Name Other
  | .done value => next value
  | .act op rest => .act op fun answer => (rest answer).bind next
  | .call name rest => .call name (rest.bind next)

instance : Monad (Code Answer Name) where
  pure := .done
  bind code next := code.bind next

def atomic (op : Op) : Code Answer Name (Answer op) := .act op .done

def run (name : Name) : Code Answer Name Unit := .call name (.done ())

def each (body : Item → Code Answer Name Unit) : List Item → Code Answer Name Unit
  | [] => pure ()
  | item :: rest => do
      body item
      each body rest

def isDone : Code Answer Name Value → Bool
  | .done _ => true
  | _ => false

end Code

structure System {Op : Type} (Answer : Op → Type) (World Name : Type) where
  world : World
  threads : List (Code Answer Name Unit)

inductive Pick (Choice Arrival : Type) where
  | turn (thread : Nat) (choice : Choice)
  | arrive (arrival : Arrival)
  deriving DecidableEq

/-- What may happen: an operation in a world, an arrival in a world. -/
structure Rules (World Op Arrival : Type) where
  meets : World → Op → Bool := fun _ _ => true
  admits : World → Arrival → Bool := fun _ _ => true

structure Machine {Op : Type} (Answer : Op → Type) (World Name Choice Arrival : Type) where
  perform : World → (op : Op) → Choice → Option (World × Answer op)
  body : Name → Code Answer Name Unit
  arrive : World → Arrival → Option (World × Code Answer Name Unit)

variable {before after : System Answer World Name}

namespace Machine

variable (machine : Machine Answer World Name Choice Arrival) (rules : Rules World Op Arrival)

def turn (world : World) (choice : Choice) : Code Answer Name Unit →
    Option (World × Code Answer Name Unit)
  | .done _ => none
  | .act op next =>
    if rules.meets world op then
      (machine.perform world op choice).map fun result => (result.1, next result.2)
    else none
  | .call name next => some (world, (machine.body name).bind fun _ => next)

def advance (system : System Answer World Name) :
    Pick Choice Arrival → Option (System Answer World Name)
  | .turn thread choice =>
    match system.threads[thread]? with
    | none => none
    | some code => (machine.turn rules system.world choice code).map fun result =>
      ⟨result.1, system.threads.set thread result.2⟩
  | .arrive arrival =>
    if rules.admits system.world arrival then
      (machine.arrive system.world arrival).map fun result =>
        ⟨result.1, system.threads ++ [result.2]⟩
    else none

def Step (before after : System Answer World Name) : Prop :=
  ∃ pick, machine.advance rules before pick = some after

def play (system : System Answer World Name) :
    List (Pick Choice Arrival) → Option (System Answer World Name)
  | [] => some system
  | pick :: rest => (machine.advance rules system pick).bind fun next => play next rest

variable {machine rules}

theorem play_reachable {start : System Answer World Name → Prop}
    (reached : Reachable start (machine.Step rules) before) (picks : List (Pick Choice Arrival))
    (played : machine.play rules before picks = some after) :
    Reachable start (machine.Step rules) after := by
  induction picks generalizing before with
  | nil =>
    cases played
    exact reached
  | cons pick rest ih =>
    obtain ⟨next, advanced, played⟩ := Option.bind_eq_some_iff.mp played
    exact ih (reached.next ⟨pick, advanced⟩) played

theorem step_cases (step : machine.Step rules before after) :
    (∃ left code right choice world later, before.threads = left ++ code :: right ∧
      machine.turn rules before.world choice code = some (world, later) ∧
      after = ⟨world, left ++ later :: right⟩) ∨
    (∃ arrival world code, rules.admits before.world arrival = true ∧
      machine.arrive before.world arrival = some (world, code) ∧
      after = ⟨world, before.threads ++ [code]⟩) := by
  obtain ⟨pick, advanced⟩ := step
  cases pick with
  | turn thread choice =>
    left
    simp only [advance] at advanced
    split at advanced
    · cases advanced
    rename_i code found
    obtain ⟨⟨world, later⟩, turned, rfl⟩ := Option.map_eq_some_iff.mp advanced
    obtain ⟨inside, rfl⟩ := List.getElem?_eq_some_iff.mp found
    obtain ⟨left, right, split, _, replaced⟩ := List.exists_of_set inside
    refine ⟨left, _, right, choice, world, later, split, turned, ?_⟩
    rw [replaced]
  | arrive arrival =>
    right
    simp only [advance] at advanced
    split at advanced
    · rename_i admitted
      obtain ⟨⟨world, code⟩, arrived, rfl⟩ := Option.map_eq_some_iff.mp advanced
      exact ⟨arrival, world, code, admitted, arrived, rfl⟩
    · cases advanced

end Machine

def System.Quiescent (system : System Answer World Name) : Prop :=
  ∀ code ∈ system.threads, code.isDone = true

instance (system : System Answer World Name) : Decidable system.Quiescent :=
  inferInstanceAs (Decidable (∀ code ∈ system.threads, code.isDone = true))

end GraphEngine.Interleavings
