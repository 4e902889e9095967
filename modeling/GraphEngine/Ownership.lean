import GraphEngine.Interleavings
import Mathlib.Algebra.BigOperators.Group.List.Basic

/-!
Invariants of threads over a shared world, thread by thread. Every thread holds a
share of some commutative monoid; the invariant relates the world to the sum of
all shares. Code is checked alone, against any shares the other threads may hold:
each operation may trade the shares of its own thread, and what the world only
gains is known from then on. A thread that ends holds nothing.
-/

namespace GraphEngine.Ownership

open Runs Interleavings List

variable {Op : Type} {Answer : Op → Type} {World Name Choice Arrival Value Other Item : Type}
  {next : Value → Code Answer Name Other}

/-- An invariant of the world and the shares, and what the world never loses. -/
structure Discipline (machine : Machine Answer World Name Choice Arrival)
    (rules : Rules World Op Arrival) (Share : Type) [AddCommMonoid Share] where
  Holds : World → Share → Prop
  Grows : World → World → Prop
  grows_refl : ∀ world, Grows world world
  grows_trans : ∀ {first second third}, Grows first second → Grows second third → Grows first third
  grows : ∀ {world op choice after answer}, rules.meets world op = true →
    machine.perform world op choice = some (after, answer) → Grows world after

variable {Share : Type} [AddCommMonoid Share]
variable {machine : Machine Answer World Name Choice Arrival} {rules : Rules World Op Arrival}

namespace Discipline

variable (discipline : Discipline machine rules Share)

/-- From this world on the operation trades one share for another, whatever the
others hold. -/
def Trades (base : World) (op : Op) (mine : Share) (later : Answer op → Share) : Prop :=
  ∀ world others choice after answer, discipline.Grows base world →
    discipline.Holds world (mine + others) → rules.meets world op = true →
    machine.perform world op choice = some (after, answer) →
    discipline.Holds after (later answer + others)

/-- From this world on the code keeps the invariant with this share, and ends in
the postcondition. Called procedures leave the share as it is. -/
def Keeps (post : Value → World → Share → Prop) : World → Code Answer Name Value → Share → Prop
  | base, .done value, mine => ∀ world, discipline.Grows base world → post value world mine
  | base, .act op next, mine => ∀ world others choice after answer, discipline.Grows base world →
      discipline.Holds world (mine + others) → rules.meets world op = true →
      machine.perform world op choice = some (after, answer) →
      ∃ later, discipline.Holds after (later + others) ∧ Keeps post after (next answer) later
  | base, .call _ next, mine => Keeps post base next mine

/-- The code needs no share and leaves none. -/
def Neutral (base : World) (code : Code Answer Name Value) : Prop :=
  discipline.Keeps (fun _ _ later => later = 0) base code 0

/-- The code gives back the share it was given. -/
abbrev Stays (base : World) (code : Code Answer Name Value) (mine : Share) : Prop :=
  discipline.Keeps (fun _ _ later => later = mine) base code mine

/-- The code ends with nothing. -/
def Ends (base : World) (code : Code Answer Name Value) (mine : Share) : Prop :=
  discipline.Keeps (fun _ _ later => later = 0) base code mine

end Discipline

variable {discipline : Discipline machine rules Share}
variable {base : World} {code : Code Answer Name Value} {mine : Share}

theorem keeps_mono {strong weak : Value → World → Share → Prop}
    (keeps : discipline.Keeps strong base code mine)
    (implies : ∀ value world later, discipline.Grows base world → strong value world later →
      weak value world later) : discipline.Keeps weak base code mine := by
  induction code generalizing mine base with
  | done value => exact fun world grown => implies value world mine grown (keeps world grown)
  | act op next ih =>
    intro world others choice after answer grown holds meets ran
    obtain ⟨later, kept, rest⟩ := keeps world others choice after answer grown holds meets ran
    have beyond := discipline.grows_trans grown (discipline.grows meets ran)
    exact ⟨later, kept, ih answer rest fun value world later further =>
      implies value world later (discipline.grows_trans beyond further)⟩
  | call name next ih => exact ih keeps implies

variable {post : Value → World → Share → Prop}

theorem keeps_later {later : World} (grown : discipline.Grows base later)
    (keeps : discipline.Keeps post base code mine) : discipline.Keeps post later code mine := by
  induction code with
  | done value => exact fun world further => keeps world (discipline.grows_trans grown further)
  | act op next ih =>
    exact fun world others choice after answer further =>
      keeps world others choice after answer (discipline.grows_trans grown further)
  | call name next ih => exact ih keeps

theorem keeps_bind {post : Other → World → Share → Prop} (keeps : discipline.Keeps
      (fun value world later => discipline.Keeps post world (next value) later) base code mine) :
    discipline.Keeps post base (code >>= next) mine := by
  induction code generalizing mine base with
  | done value => exact keeps base (discipline.grows_refl base)
  | act op rest ih =>
    intro world others choice after answer grown holds meets ran
    obtain ⟨later, kept, keeps⟩ := keeps world others choice after answer grown holds meets ran
    exact ⟨later, kept, ih answer keeps⟩
  | call name rest ih => exact ih keeps

theorem keeps_frame (keeps : discipline.Keeps post base code mine) (aside : Share) :
    discipline.Keeps (fun value world later => ∃ own, later = own + aside ∧ post value world own)
      base code (mine + aside) := by
  induction code generalizing mine base with
  | done value => exact fun world grown => ⟨mine, rfl, keeps world grown⟩
  | act op next ih =>
    intro world others choice after answer grown holds meets ran
    rw [add_assoc] at holds
    obtain ⟨later, kept, rest⟩ :=
      keeps world (aside + others) choice after answer grown holds meets ran
    rw [← add_assoc] at kept
    exact ⟨later + aside, kept, ih answer rest⟩
  | call name next ih => exact ih keeps

theorem keeps_aside {mid : Share}
    (keeps : discipline.Keeps (fun _ _ later => later = mid) base code mine) (aside : Share) :
    discipline.Keeps (fun _ _ later => later = mid + aside) base code (mine + aside) := by
  refine keeps_mono (keeps_frame keeps aside) ?_
  rintro _ _ _ _ ⟨_, rfl, rfl⟩
  rfl

theorem neutral_aside (neutral : discipline.Neutral base code) (mine : Share) :
    discipline.Stays base code mine := by
  simpa using keeps_aside neutral mine

variable {op : Op} {later : Answer op → Share}

theorem trades_frame (trades : discipline.Trades base op mine later) (aside : Share) :
    discipline.Trades base op (mine + aside) (fun answer => later answer + aside) := by
  intro world others choice after answer grown holds meets ran
  rw [add_assoc] at holds ⊢
  exact trades world (aside + others) choice after answer grown holds meets ran

theorem keeps_atomic {next : Answer op → Code Answer Name Value}
    (trades : discipline.Trades base op mine later)
    (rest : ∀ answer, discipline.Keeps post base (next answer) (later answer)) :
    discipline.Keeps post base (Code.atomic op >>= next) mine := by
  intro world others choice after answer grown holds meets ran
  refine ⟨later answer, trades world others choice after answer grown holds meets ran, ?_⟩
  exact keeps_later (discipline.grows_trans grown (discipline.grows meets ran)) (rest answer)

/-- From this world on the operation trades a share and tells something about the
world. -/
def Discipline.Learns (discipline : Discipline machine rules Share) (base : World) (op : Op)
    (mine : Share) (later : Answer op → Share) (learned : Answer op → World → Prop) : Prop :=
  ∀ world others choice after answer, discipline.Grows base world →
    discipline.Holds world (mine + others) → rules.meets world op = true →
    machine.perform world op choice = some (after, answer) →
    discipline.Holds after (later answer + others) ∧ learned answer after

variable {learned : Answer op → World → Prop}

/-- An operation with a part of the share before the rest, which starts from what was
learned. -/
theorem keeps_learns {next : Answer op → Code Answer Name Value} {used : Share} (aside : Share)
    (learns : discipline.Learns base op used later learned) (parts : mine = used + aside)
    (rest : ∀ answer after, discipline.Grows base after → learned answer after →
      discipline.Keeps post after (next answer) (later answer + aside)) :
    discipline.Keeps post base (Code.atomic op >>= next) mine := by
  intro world others choice after answer grown holds meets ran
  rw [parts, add_assoc] at holds
  obtain ⟨kept, known⟩ := learns world (aside + others) choice after answer grown holds meets ran
  rw [← add_assoc] at kept
  have further := discipline.grows_trans grown (discipline.grows meets ran)
  exact ⟨later answer + aside, kept, rest answer after further known⟩

theorem keeps_neutral {post : Other → World → Share → Prop} (neutral : discipline.Neutral base code)
    (rest : ∀ value, discipline.Keeps post base (next value) mine) :
    discipline.Keeps post base (code >>= next) mine := by
  apply keeps_bind
  have framed := keeps_frame neutral mine
  rw [zero_add] at framed
  apply keeps_mono framed
  rintro value world later grown ⟨own, rfl, rfl⟩
  rw [zero_add]
  exact keeps_later grown (rest value)

variable {mid : Value → Share} {post : Other → World → Share → Prop}

theorem keeps_then
    (first : discipline.Keeps (fun value _ later => later = mid value) base code mine)
    (rest : ∀ value, discipline.Keeps post base (next value) (mid value)) :
    discipline.Keeps post base (code >>= next) mine := by
  apply keeps_bind
  apply keeps_mono first
  rintro value world later grown rfl
  exact keeps_later grown (rest value)

theorem keeps_given {shown : Value → Prop}
    (first : discipline.Keeps (fun value _ later => later = mid value ∧ shown value) base code mine)
    (rest : ∀ value, shown value → discipline.Keeps post base (next value) (mid value)) :
    discipline.Keeps post base (code >>= next) mine := by
  apply keeps_bind
  apply keeps_mono first
  rintro value world later grown ⟨rfl, fact⟩
  exact keeps_later grown (rest value fact)

theorem keeps_ite {check : Prop} [Decidable check] {yes no : Code Answer Name Other}
    (first : check → discipline.Keeps post base yes mine)
    (second : ¬ check → discipline.Keeps post base no mine) :
    discipline.Keeps post base (if check then yes else no) mine := by
  split
  · next holds => exact first holds
  · next fails => exact second fails

/-- Neutral code whose answer decides between two ways on. -/
theorem keeps_check {check : Value → Prop} [DecidablePred check]
    {yes no : Value → Code Answer Name Other} (first : discipline.Neutral base code)
    (left : ∀ value, discipline.Keeps post base (yes value) mine)
    (right : ∀ value, discipline.Keeps post base (no value) mine) :
    discipline.Keeps post base (code >>= fun value => if check value then yes value else no value)
      mine :=
  keeps_neutral first fun value => keeps_ite (fun _ => left value) fun _ => right value

theorem keeps_act (trades : discipline.Trades base op mine later) :
    discipline.Keeps (fun answer _ share => share = later answer) base
      (Code.atomic op : Code Answer Name (Answer op)) mine := by
  intro world others choice after answer grown holds meets ran
  exact ⟨later answer, trades world others choice after answer grown holds meets ran,
    fun _ _ => rfl⟩

theorem ends_pure {value : Value} :
    discipline.Ends base (pure value : Code Answer Name Value) 0 := fun _ _ => rfl

theorem ends_act (trades : discipline.Trades base op mine fun _ => 0) :
    discipline.Ends base (Code.atomic op : Code Answer Name (Answer op)) mine :=
  keeps_act trades

theorem ends_bind (first : discipline.Ends base code mine)
    (rest : ∀ value, discipline.Neutral base (next value)) :
    discipline.Ends base (code >>= next) mine :=
  keeps_then first rest

theorem ends_after (first : discipline.Neutral base code)
    (rest : ∀ value, discipline.Ends base (next value) mine) :
    discipline.Ends base (code >>= next) mine :=
  keeps_neutral first rest

theorem neutral_pure {value : Value} :
    discipline.Neutral base (pure value : Code Answer Name Value) := fun _ _ => rfl

theorem neutral_bind (first : discipline.Neutral base code)
    (second : ∀ value, discipline.Neutral base (next value)) :
    discipline.Neutral base (code >>= next) :=
  keeps_neutral first second

theorem neutral_atomic (trades : discipline.Trades base op 0 fun _ => 0) :
    discipline.Neutral base (Code.atomic op : Code Answer Name (Answer op)) :=
  ends_act trades

theorem neutral_run {name : Name} :
    discipline.Neutral base (Code.run name : Code Answer Name Unit) := fun _ _ => rfl

theorem neutral_each {body : Item → Code Answer Name Unit} {items : List Item}
    (neutral : ∀ item ∈ items, discipline.Neutral base (body item)) :
    discipline.Neutral base (Code.each body items) := by
  induction items with
  | nil => exact neutral_pure
  | cons item rest ih =>
    exact neutral_bind (neutral item (by simp))
      fun _ => ih fun other inside => neutral other (by simp [inside])

theorem keeps_each {body : Item → Code Answer Name Unit} (share : List Item → Share)
    (items : List Item)
    (keeps : ∀ item rest, discipline.Keeps (fun _ _ later => later = share rest) base (body item)
      (share (item :: rest))) :
    discipline.Keeps (fun _ _ later => later = share []) base (Code.each body items)
      (share items) := by
  induction items with
  | nil => exact fun _ _ => rfl
  | cons item rest ih => exact keeps_then (keeps item rest) fun _ => ih

def Shared (discipline : Discipline machine rules Share) (system : System Answer World Name) :
    Prop :=
  ∃ owned : List (Code Answer Name Unit × Share), system.threads = owned.map Prod.fst ∧
    (∀ thread ∈ owned, discipline.Ends system.world thread.1 thread.2) ∧
    discipline.Holds system.world (owned.map Prod.snd).sum

variable {system : System Answer World Name}

section Reachable

variable (bodies : ∀ base name, discipline.Neutral base (machine.body name))

include bodies in
theorem keeps_turn {code later : Code Answer Name Unit} {world after : World} {choice : Choice}
    {others : Share} (ends : discipline.Ends world code mine)
    (holds : discipline.Holds world (mine + others))
    (turned : machine.turn rules world choice code = some (after, later)) :
    discipline.Grows world after ∧
      ∃ share, discipline.Holds after (share + others) ∧ discipline.Ends after later share := by
  have here := discipline.grows_refl world
  cases code with
  | done value => cases turned
  | act op next =>
    simp only [Machine.turn] at turned
    split at turned
    · rename_i meets
      obtain ⟨⟨reached, answer⟩, ran, same⟩ := Option.map_eq_some_iff.mp turned
      cases same
      exact ⟨discipline.grows meets ran, ends _ others choice _ answer here holds meets ran⟩
    · cases turned
  | call name next =>
    cases turned
    exact ⟨here, mine, holds, keeps_neutral (bodies _ name) fun _ => ends⟩

variable (arrivals : ∀ world others arrival after code, discipline.Holds world others →
  rules.admits world arrival = true → machine.arrive world arrival = some (after, code) →
  discipline.Grows world after ∧
    ∃ fresh, discipline.Holds after (fresh + others) ∧ discipline.Ends after code fresh)

include bodies arrivals in
theorem shared_step {before after : System Answer World Name} (shared : Shared discipline before)
    (step : machine.Step rules before after) : Shared discipline after := by
  obtain ⟨owned, threads, keep, holds⟩ := shared
  rcases Machine.step_cases step with
    ⟨left, code, right, choice, world, later, split, turned, rfl⟩ |
    ⟨arrival, world, code, admitted, arrived, rfl⟩
  · obtain ⟨earlier, rest, rfl, rfl, tail⟩ := map_eq_append_iff.mp (threads.symm.trans split)
    obtain ⟨⟨running, mine⟩, following, rfl, rfl, rfl⟩ := map_eq_cons_iff.mp tail
    have reordered : ((earlier ++ (running, mine) :: following).map Prod.snd).sum =
        mine + ((earlier.map Prod.snd).sum + (following.map Prod.snd).sum) := by
      simp only [map_append, sum_append]
      exact add_left_comm _ _ _
    rw [reordered] at holds
    obtain ⟨grown, share, kept, ends⟩ :=
      keeps_turn bodies (keep (running, mine) (by simp)) holds turned
    refine ⟨earlier ++ (later, share) :: following, by simp, ?_, ?_⟩
    · intro thread inside
      rcases mem_append.mp inside with inside | inside
      · exact keeps_later grown (keep thread (by simp [inside]))
      · rcases mem_cons.mp inside with rfl | inside
        · exact ends
        · exact keeps_later grown (keep thread (by simp [inside]))
    · simp only [map_append, map_cons, sum_append, sum_cons]
      rw [add_left_comm]
      exact kept
  · obtain ⟨grown, fresh, kept, ends⟩ := arrivals _ _ arrival world code holds admitted arrived
    refine ⟨owned ++ [(code, fresh)], by simp [threads], ?_, ?_⟩
    · intro thread inside
      rcases mem_append.mp inside with inside | inside
      · exact keeps_later grown (keep thread inside)
      · rw [mem_singleton.mp inside]
        exact ends
    · simp only [map_append, map_cons, map_nil, sum_append, sum_cons, sum_nil, add_zero]
      rw [add_comm]
      exact kept

include bodies arrivals in
theorem reachable_shared {start : System Answer World Name → Prop}
    (initially : ∀ system, start system → system.threads = [] ∧ discipline.Holds system.world 0)
    (reached : Reachable start (machine.Step rules) system) : Shared discipline system := by
  refine reachable_invariant (Shared discipline) ?_ ?_ reached
  · intro first begun
    obtain ⟨alone, holds⟩ := initially first begun
    exact ⟨[], by simp [alone], by simp, by simpa using holds⟩
  · exact fun before after _ shared step => shared_step bodies arrivals shared step

end Reachable

theorem shared_quiescent (shared : Shared discipline system) (quiet : system.Quiescent) :
    discipline.Holds system.world 0 := by
  obtain ⟨owned, threads, keep, holds⟩ := shared
  have none_left : (owned.map Prod.snd).sum = 0 := by
    apply sum_eq_zero
    intro share inside
    obtain ⟨⟨code, mine⟩, member, rfl⟩ := mem_map.mp inside
    have ended := quiet code (by
      rw [threads]
      exact mem_map.mpr ⟨_, member, rfl⟩)
    have ends := keep _ member
    cases code with
    | done value => exact ends _ (discipline.grows_refl _)
    | act op next | call name next => cases ended
  rwa [none_left] at holds

end GraphEngine.Ownership
