/-!
Transition systems: the states reachable from a start by steps, and what holds of
all of them.
-/

namespace GraphEngine.Runs

universe u
variable {State : Type u}

inductive Reachable (start : State → Prop) (step : State → State → Prop) : State → Prop where
  | initial {state : State} (begun : start state) : Reachable start step state
  | next {before after : State} (reached : Reachable start step before)
      (taken : step before after) : Reachable start step after

variable {start : State → Prop} {step : State → State → Prop}

theorem reachable_invariant (Holds : State → Prop) (initially : ∀ state, start state → Holds state)
    (kept : ∀ before after, Reachable start step before → Holds before → step before after →
      Holds after) {state : State} (reached : Reachable start step state) : Holds state := by
  induction reached with
  | initial begun => exact initially _ begun
  | next reached taken ih => exact kept _ _ reached ih taken

theorem reachable_mono {wide : State → State → Prop} (inside : ∀ before after, step before after →
    wide before after) {state : State} (reached : Reachable start step state) :
    Reachable start wide state := by
  induction reached with
  | initial begun => exact .initial begun
  | next _ taken ih => exact ih.next (inside _ _ taken)

/-- The steps that meet a condition. -/
def Under (condition step : State → State → Prop) (before after : State) : Prop :=
  step before after ∧ condition before after

theorem reachable_of_under {condition : State → State → Prop} {state : State}
    (reached : Reachable start (Under condition step) state) : Reachable start step state :=
  reachable_mono (fun _ _ taken => taken.1) reached

theorem reachable_played {Action : Type} {act : State → Action → Option State}
    (steps : ∀ before action after, act before action = some after → step before after)
    {actions : List Action} {before after : State} (reached : Reachable start step before)
    (played : actions.foldlM act before = some after) : Reachable start step after := by
  induction actions generalizing before with
  | nil =>
    cases played
    exact reached
  | cons action rest ih =>
    rw [List.foldlM_cons] at played
    cases done : act before action with
    | none => simp [done] at played
    | some middle =>
      rw [done] at played
      exact ih (reached.next (steps _ _ _ done)) played

/-- One action of a machine, where it is allowed. -/
def Acts {Action : Type} (act : State → Action → Option State) (allowed : State → Action → Prop)
    (before after : State) : Prop :=
  ∃ action, allowed before action ∧ act before action = some after

/-- The state after a list of actions that are allowed. -/
def play {Action : Type} (act : State → Action → Option State) (allowed : State → Action → Prop)
    [∀ state action, Decidable (allowed state action)] (first : State) (actions : List Action) :
    Option State :=
  actions.foldlM (fun state action => if allowed state action then act state action else none) first

theorem reachable_seen {Action View : Type} {act : State → Action → Option State}
    {allowed : State → Action → Prop} [∀ state action, Decidable (allowed state action)]
    {first : State} {actions : List Action} {look : State → View} {view : View}
    (played : (play act allowed first actions).map look = some view) :
    ∃ state, Reachable (· = first) (Acts act allowed) state ∧ look state = view := by
  obtain ⟨state, done, seen⟩ := Option.map_eq_some_iff.mp played
  refine ⟨state, reachable_played (fun _ action _ acted => ?_) (.initial rfl) done, seen⟩
  exact ⟨action, Option.ite_none_right_eq_some.mp acted⟩

end GraphEngine.Runs
