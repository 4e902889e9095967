import Mathlib.Data.List.Basic

/-!
Programs over a state that may run out of steps, and rules to show that a program
returns with a given postcondition. `Ensures` is total: it asks for a result.
-/

namespace GraphEngine.StatePrograms

variable {State Value Other Item : Type} {post : Value → State → Prop}

abbrev Program (State Value : Type) := StateT State Option Value

/-- The program returns from this state, and the postcondition holds of what it
returns and leaves. -/
def Ensures (program : Program State Value) (before : State) (post : Value → State → Prop) : Prop :=
  ∃ value after, program before = some (value, after) ∧ post value after

variable {before : State} {program : Program State Value}

theorem ensures_mono {strong weak : Value → State → Prop} (holds : Ensures program before strong)
    (implies : ∀ value after, strong value after → weak value after) :
    Ensures program before weak := by
  obtain ⟨value, after, returns, post⟩ := holds
  exact ⟨value, after, returns, implies value after post⟩

theorem ensures_pure {value : Value} (holds : post value before) :
    Ensures (pure value) before post :=
  ⟨value, before, rfl, holds⟩

theorem ensures_bind {first : Program State Value} {next : Value → Program State Other}
    {post : Other → State → Prop}
    (holds : Ensures first before fun value middle => Ensures (next value) middle post) :
    Ensures (first >>= next) before post := by
  obtain ⟨value, middle, returns, other, after, later, final⟩ := holds
  refine ⟨other, after, ?_, final⟩
  simp only [bind, StateT.bind, returns]
  exact later

theorem ensures_get {post : State → State → Prop} (holds : post before before) :
    Ensures (get : Program State State) before post :=
  ⟨before, before, rfl, holds⟩

theorem ensures_modify {change : State → State} {post : Unit → State → Prop}
    (holds : post () (change before)) : Ensures (modify change : Program State Unit) before post :=
  ⟨(), change before, rfl, holds⟩

theorem ensures_get_bind {next : State → Program State Value}
    (holds : Ensures (next before) before post) : Ensures (get >>= next) before post :=
  ensures_bind (ensures_get holds)

theorem ensures_modify_bind {change : State → State} {next : Unit → Program State Value}
    (holds : Ensures (next ()) (change before) post) :
    Ensures (modify change >>= next) before post :=
  ensures_bind (ensures_modify holds)

theorem ensures_then {next : Value → Program State Other} {middle : Value → State → Prop}
    {post : Other → State → Prop} (first : Ensures program before middle)
    (rest : ∀ value after, middle value after → Ensures (next value) after post) :
    Ensures (program >>= next) before post :=
  ensures_bind (ensures_mono first rest)

theorem ensures_returns (holds : Ensures program before post) {value : Value} {after : State}
    (returns : program before = some (value, after)) : post value after := by
  obtain ⟨other, final, same, post⟩ := holds
  rw [same] at returns
  cases returns
  exact post

end GraphEngine.StatePrograms
