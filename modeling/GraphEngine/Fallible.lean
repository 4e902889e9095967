import Mathlib.Data.List.Basic

/-!
Reasoning about computations in `Except`: reading a success back through
guards, binds and folds, and two rules for a fold over a list of operations.
`foldlM_invariant` carries one predicate along a successful fold;
`foldlM_simulates` replays a successful fold from a related state.
-/

namespace GraphEngine.Fallible

open List

universe u v
variable {Error : Type u} {State Item Value Other : Type v}
  {step : State → Item → Except Error State}

theorem guard_ok {check : Prop} [Decidable check] {error : Error}
    {rest : Except Error Value} {value : Value} :
    (if check then .error error else rest) = .ok value ↔ ¬check ∧ rest = .ok value := by
  by_cases hit : check <;> simp [hit]

theorem bind_ok {first : Except Error Value} {next : Value → Except Error Other} {value : Other} :
    (first >>= next) = .ok value ↔ ∃ middle, first = .ok middle ∧ next middle = .ok value := by
  cases first with
  | error error | ok middle => simp [bind, Except.bind]

theorem then_ok {first : Except Error Value} {next : Value → Except Error Other} {value : Other}
    (middle : Value) (done : first = .ok middle) (rest : next middle = .ok value) :
    (first >>= next) = .ok value :=
  bind_ok.mpr ⟨middle, done, rest⟩

theorem exists_of_isOk {run : Except Error Value}
    (succeeds : run.isOk = true := by decide +kernel) : ∃ value, run = .ok value := by
  cases run with
  | error error => cases succeeds
  | ok value => exact ⟨value, rfl⟩

theorem outcome_ok {First Second : Type v} {run : Except Error (First × Second)} {first : First}
    {second : Second} {refused : Error → Prop} {good : First → Second → Prop}
    (outcome : (∃ error, run = .error error ∧ refused error) ∨
      ∃ first second, run = .ok (first, second) ∧ good first second)
    (done : run = .ok (first, second)) : good first second := by
  rcases outcome with ⟨error, failed, -⟩ | ⟨_, _, ran, holds⟩
  · rw [done] at failed
    cases failed
  · rw [done] at ran
    cases ran
    exact holds

variable {before after : State}

theorem foldlM_cons_ok {item : Item} {rest : List Item} :
    (item :: rest).foldlM step before = .ok after ↔
      ∃ middle, step before item = .ok middle ∧ rest.foldlM step middle = .ok after := by
  rw [foldlM_cons, bind_ok]

theorem foldlM_nil_ok : ([] : List Item).foldlM step before = .ok after ↔ before = after := by
  simp [pure, Except.pure]

theorem foldlM_append_ok {front back : List Item} : (front ++ back).foldlM step before = .ok after ↔
      ∃ middle, front.foldlM step before = .ok middle ∧ back.foldlM step middle = .ok after := by
  rw [foldlM_append, bind_ok]

variable {items : List Item}

theorem foldlM_invariant (Holds : State → Prop)
    (keeps : ∀ item ∈ items, ∀ s t, step s item = .ok t → Holds s → Holds t)
    (success : items.foldlM step before = .ok after) (initial : Holds before) : Holds after := by
  induction items generalizing before with
  | nil =>
    rw [← foldlM_nil_ok.mp success]
    exact initial
  | cons item rest ih =>
    obtain ⟨middle, first, later⟩ := foldlM_cons_ok.mp success
    rw [forall_mem_cons] at keeps
    exact ih keeps.2 later (keeps.1 before middle first initial)

variable {right : State → Item → Except Error State}

/-- A successful fold can be replayed from any related state, with steps of its
own, provided every step that ends below the fold's result can be. -/
theorem foldlM_simulates {left : State → Item → Except Error State} {Related : State → State → Prop}
    (Valid : State → Prop) {Below : State → Prop} {other : State}
    (keeps : ∀ item ∈ items, ∀ s t, Valid s → left s item = .ok t → Valid t)
    (below : ∀ item ∈ items, ∀ s t, Valid s → left s item = .ok t → Below t → Below s)
    (replay : ∀ item ∈ items, ∀ s t r, Valid s → left s item = .ok t → Below t → Related s r →
      ∃ r', right r item = .ok r' ∧ Related t r') (valid : Valid before)
    (success : items.foldlM left before = .ok after) (bounded : Below after)
    (start : Related before other) :
    ∃ final, items.foldlM right other = .ok final ∧ Related after final := by
  suffices walk : Below before ∧ ∀ other, Related before other →
      ∃ final, items.foldlM right other = .ok final ∧ Related after final from walk.2 other start
  clear start
  induction items generalizing before with
  | nil =>
    cases foldlM_nil_ok.mp success
    exact ⟨bounded, fun other start => ⟨other, foldlM_nil_ok.mpr rfl, start⟩⟩
  | cons item rest ih =>
    obtain ⟨middle, first, later⟩ := foldlM_cons_ok.mp success
    rw [forall_mem_cons] at keeps below replay
    obtain ⟨middleBelow, walk⟩ :=
      ih keeps.2 below.2 replay.2 (keeps.1 before middle valid first) later
    refine ⟨below.1 before middle valid first middleBelow, fun other start => ?_⟩
    obtain ⟨otherMiddle, otherFirst, related⟩ :=
      replay.1 before middle other valid first middleBelow start
    obtain ⟨final, otherLater, finalRelated⟩ := walk otherMiddle related
    exact ⟨final, foldlM_cons_ok.mpr ⟨otherMiddle, otherFirst, otherLater⟩, finalRelated⟩

/-- The outcome of a fold whose steps either fail in an expected way or extend an
invariant about the items processed so far. -/
theorem foldlM_outcome {Expected : Error → Prop} (Holds : List Item → State → Prop)
    (progress : ∀ done item rest s, items = done ++ item :: rest → Holds done s →
      (∃ error, step s item = .error error ∧ Expected error) ∨
        ∃ t, step s item = .ok t ∧ Holds (done ++ [item]) t) (initial : Holds [] before) :
    (∃ error, items.foldlM step before = .error error ∧ Expected error) ∨
      ∃ after, items.foldlM step before = .ok after ∧ Holds items after := by
  have walk : ∀ rest done s, items = done ++ rest → Holds done s →
      (∃ error, rest.foldlM step s = .error error ∧ Expected error) ∨
        ∃ after, rest.foldlM step s = .ok after ∧ Holds items after := by
    intro rest
    induction rest with
    | nil =>
      intro done s split held
      refine Or.inr ⟨s, rfl, ?_⟩
      rwa [split, append_nil]
    | cons item rest ih =>
      intro done s split held
      rcases progress done item rest s split held with ⟨error, failed, expected⟩ | ⟨t, ran, next⟩
      · refine Or.inl ⟨error, ?_, expected⟩
        rw [foldlM_cons, failed]
        rfl
      · have later := ih (done ++ [item]) t (by simp [split]) next
        rw [foldlM_cons, ran]
        exact later
  exact walk items [] before rfl initial

theorem foldlM_completes (Holds : List Item → State → Prop)
    (progress : ∀ done item rest s, items = done ++ item :: rest → Holds done s →
      ∃ t, step s item = .ok t ∧ Holds (done ++ [item]) t) (initial : Holds [] before) :
    ∃ after, items.foldlM step before = .ok after ∧ Holds items after := by
  have never : ∀ done item rest s, items = done ++ item :: rest → Holds done s →
      (∃ error, step s item = .error error ∧ False) ∨
        ∃ t, step s item = .ok t ∧ Holds (done ++ [item]) t :=
    fun done item rest s split held => Or.inr (progress done item rest s split held)
  rcases foldlM_outcome Holds never initial with ⟨_, _, impossible⟩ | completed
  · exact impossible.elim
  · exact completed

theorem foldlM_congr {left : State → Item → Except Error State}
    (same : ∀ item ∈ items, ∀ s, left s item = right s item) (before : State) :
    items.foldlM left before = items.foldlM right before := by
  induction items generalizing before with
  | nil => rfl
  | cons item rest ih =>
    rw [forall_mem_cons] at same
    rw [foldlM_cons, same.1 before]
    exact bind_congr (ih same.2)

theorem foldlM_filter {keep : Item → Bool}
    (skips : ∀ item s, keep item = false → step s item = .ok s) (items : List Item)
    (before : State) : (items.filter keep).foldlM step before = items.foldlM step before := by
  rw [List.foldlM_filter]
  refine foldlM_congr (fun item _ s => ?_) before
  cases kept : keep item with
  | true => rfl
  | false => exact (skips item s kept).symm

theorem mapM_ok {change : Item → Except Error Value} {values : List Value}
    (success : items.mapM change = .ok values) :
    (∀ item ∈ items, ∃ value ∈ values, change item = .ok value) ∧
      ∀ value ∈ values, ∃ item ∈ items, change item = .ok value := by
  induction items generalizing values with
  | nil =>
    cases success
    exact ⟨nofun, nofun⟩
  | cons item rest ih =>
    rw [mapM_cons] at success
    obtain ⟨value, first, success⟩ := bind_ok.mp success
    obtain ⟨others, later, success⟩ := bind_ok.mp success
    cases success
    obtain ⟨mapped, sources⟩ := ih later
    constructor
    · rintro other (_ | ⟨_, member⟩)
      · exact ⟨value, mem_cons_self, first⟩
      · obtain ⟨image, listed, done⟩ := mapped other member
        exact ⟨image, mem_cons_of_mem _ listed, done⟩
    · rintro image (_ | ⟨_, listed⟩)
      · exact ⟨item, mem_cons_self, first⟩
      · obtain ⟨other, member, done⟩ := sources image listed
        exact ⟨other, mem_cons_of_mem _ member, done⟩

end GraphEngine.Fallible
