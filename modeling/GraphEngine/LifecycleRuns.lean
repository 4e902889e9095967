import GraphEngine.Lifecycles
import GraphEngine.Ownership

/-!
The state machine of a session. `Start` and `Pause` begin with a compare-and-swap
but end with an unconditional exchange, and `OnAllClosed` exchanges a state it has
only read: as long as each of these exchanges finds the state its caller knows, no
run leaves a final state.
-/

namespace GraphEngine.LifecycleRuns

open Sessions Interleavings Ownership Lifecycles

def Legal (old next : SessionState) : Prop :=
  (old = .stopped → next = .stopped) ∧ (old = .failed → next = .failed) ∧
    (old = .stopping → SessionState.ending next = true)

instance (old next : SessionState) : Decidable (Legal old next) :=
  inferInstanceAs (Decidable (_ ∧ _ ∧ _))

/-- Every state the session ever had may come before its present one, and mutations
were accepted only while it ran or was paused. -/
structure Follows (session : Lifecycle) : Prop where
  legal : ∀ old ∈ session.past, Legal old session.state
  accepted : ∀ state ∈ session.mutations, state = .running ∨ state = .paused

instance (session : Lifecycle) : Decidable (Follows session) :=
  decidable_of_iff ((∀ old ∈ session.past, Legal old session.state) ∧
      ∀ state ∈ session.mutations, state = .running ∨ state = .paused)
    ⟨fun both => ⟨both.1, both.2⟩, fun follows => ⟨follows.legal, follows.accepted⟩⟩

theorem legal_self (state : SessionState) : Legal state state := by
  cases state <;> decide

theorem legal_trans {first second third : SessionState} (earlier : Legal first second)
    (later : Legal second third) : Legal first third := by
  revert earlier later
  cases first <;> cases second <;> cases third <;> decide

variable {session : Lifecycle} {next : SessionState}

theorem follows_moveTo (follows : Follows session)
    (legal : Legal session.state next) : Follows (session.moveTo next) := by
  constructor
  · intro old inside
    rcases List.mem_append.mp inside with inside | inside
    · exact legal_trans (follows.legal old inside) legal
    · rw [List.mem_singleton.mp inside]
      exact legal_self next
  · exact follows.accepted

/-- Every exchange finds the state its caller last knew. -/
def undisturbed : Rules Lifecycle Op Arrival where
  meets session op :=
    match op with
    | .exchange known _ => session.state = known
    | _ => true

variable {failSession : Bool}

/-- No thread owns anything; the session follows its machine between any two steps. -/
def discipline (failSession : Bool) : Discipline (machine failSession) undisturbed Nat where
  Holds session _ := Follows session
  Grows _ _ := True
  grows_refl _ := trivial
  grows_trans _ _ := trivial
  grows _ _ := trivial

def Op.Lawful : Op → Prop
  | .exchange known next => Legal known next
  | .transitionIf old next => Legal old next
  | _ => True

theorem follows_perform {after : Lifecycle} {op : Op} {choice : Bool} {answer : op.Answer}
    (follows : Follows session) (lawful : Op.Lawful op)
    (meets : undisturbed.meets session op = true)
    (performed : perform session op choice = some (after, answer)) : Follows after := by
  cases op with
  | exchange known next =>
    have found : session.state = known := of_decide_eq_true meets
    subst found
    cases performed
    exact follows_moveTo follows lawful
  | transitionIf old next =>
    simp only [perform] at performed
    split at performed
    · next found =>
      subst found
      cases performed
      exact follows_moveTo follows lawful
    · cases performed
      exact follows
  | acceptsMutations =>
    simp only [perform] at performed
    split at performed
    · next accepts =>
      cases performed
      refine ⟨follows.legal, fun state inside => ?_⟩
      rcases List.mem_append.mp inside with inside | inside
      · exact follows.accepted state inside
      · rw [List.mem_singleton.mp inside]
        simpa [SessionState.acceptsMutations] using accepts
    · cases performed
      exact follows
  | lockStop =>
    simp only [perform] at performed
    split at performed
    · cases performed
    · cases performed
      exact ⟨follows.legal, follows.accepted⟩
  | retry => cases performed
  | _ =>
    cases performed
    exact ⟨follows.legal, follows.accepted⟩

variable {base : Lifecycle}

theorem neutral_lawful {op : Op} (lawful : Op.Lawful op) :
    (discipline failSession).Neutral base (atomic op) :=
  neutral_atomic fun _ _ _ _ _ _ follows meets performed =>
    follows_perform follows lawful meets performed

variable {known : SessionState}

theorem neutral_exchange (legal : Legal known next) :
    (discipline failSession).Neutral base (atomic (.exchange known next)) :=
  neutral_lawful legal

theorem neutral_transitionIf {old : SessionState} (legal : Legal old next) :
    (discipline failSession).Neutral base (atomic (.transitionIf old next)) :=
  neutral_lawful legal

theorem neutral_start (base : Lifecycle) : (discipline failSession).Neutral base start := by
  refine keeps_check (neutral_transitionIf (by decide)) (fun began => ?_) fun _ => neutral_pure
  exact keeps_check (neutral_lawful trivial) (fun _ => neutral_exchange (by decide))
    fun _ => neutral_exchange (by decide)

theorem neutral_pause (base : Lifecycle) : (discipline failSession).Neutral base pause := by
  exact keeps_check (neutral_transitionIf (by decide)) (fun _ => neutral_exchange (by decide))
    fun _ => neutral_pure

theorem neutral_resume (base : Lifecycle) : (discipline failSession).Neutral base resume :=
  neutral_bind (neutral_transitionIf (by decide)) fun _ => neutral_pure

theorem legal_stopped (alive : known ≠ .failed) : Legal known .stopped := by
  revert alive
  cases known <;> decide

theorem neutral_onAllClosed (base : Lifecycle) :
    (discipline failSession).Neutral base onAllClosed := by
  refine neutral_bind (neutral_lawful trivial) fun _ => ?_
  refine keeps_check (neutral_lawful trivial) (fun _ => neutral_lawful trivial) fun signalled => ?_
  refine neutral_bind (neutral_lawful trivial) fun operations => ?_
  refine neutral_bind (neutral_lawful trivial) fun known => ?_
  have tail (_ : PUnit) : (discipline failSession).Neutral base (do
      atomic (.signal false)
      atomic .unlockStop
      Code.each (fun operation => atomic (.succeed operation)) operations) := by
    refine neutral_bind (neutral_lawful trivial) fun _ => ?_
    refine neutral_bind (neutral_lawful trivial) fun _ => ?_
    exact neutral_each fun _ _ => neutral_lawful trivial
  exact keeps_ite (fun alive => neutral_bind (neutral_exchange (legal_stopped alive)) tail)
    fun _ => tail ()

/-- The parts of `Stop` behind its loop change the state only through
`OnAllClosed`. -/
theorem neutral_stopped (base : Lifecycle) (operation : Nat) :
    (discipline failSession).Neutral base (awaitStopped operation) ∧
      (discipline failSession).Neutral base (stopCreated operation) ∧
      (discipline failSession).Neutral base (stopStarted operation) := by
  refine ⟨?_, ?_, ?_⟩
  · refine neutral_bind (neutral_lawful trivial) fun _ => ?_
    refine neutral_bind (neutral_lawful trivial) fun signalled => ?_
    have tail (_ : PUnit) :
        (discipline failSession).Neutral base (atomic .unlockStop) := neutral_lawful trivial
    exact keeps_ite (fun _ => neutral_bind (neutral_lawful trivial) tail)
      fun _ => neutral_bind (neutral_lawful trivial) tail
  · refine neutral_bind (neutral_lawful trivial) fun _ => ?_
    refine neutral_bind (neutral_lawful trivial) fun _ => ?_
    exact neutral_bind (neutral_lawful trivial) fun _ => neutral_lawful trivial
  · refine neutral_bind (neutral_lawful trivial) fun _ => ?_
    refine neutral_bind (neutral_lawful trivial) fun _ => ?_
    refine neutral_bind (neutral_lawful trivial) fun _ => ?_
    exact keeps_check (neutral_lawful trivial) (fun _ => neutral_onAllClosed base)
      fun _ => neutral_lawful trivial

theorem legal_alive (alive : SessionState.ending known ≠ true) : Legal known next := by
  revert alive
  cases known <;> cases next <;> decide

variable {again : Routine Unit}

theorem neutral_stopRound (repeats : (discipline failSession).Neutral base again) (operation : Nat)
    (known : SessionState) :
    (discipline failSession).Neutral base (stopRound operation again known) := by
  obtain ⟨awaits, created, started⟩ := @neutral_stopped failSession base operation
  refine keeps_ite (fun _ => awaits) fun alive => keeps_ite (fun _ => ?_) fun _ => ?_
  · exact keeps_check (neutral_transitionIf (legal_alive alive)) (fun _ => created) fun _ => repeats
  · exact keeps_check (neutral_transitionIf (legal_alive alive)) (fun _ => started) fun _ => repeats

theorem neutral_stopFrom (base : Lifecycle) (operation rounds : Nat) (known : SessionState) :
    (discipline failSession).Neutral base (stopFrom operation rounds known) := by
  induction rounds generalizing known with
  | zero => exact neutral_stopRound (@neutral_lawful _ _ .retry trivial) operation known
  | succ rounds ih =>
    exact neutral_stopRound (neutral_bind (@neutral_lawful _ _ .state trivial) ih) operation known

theorem neutral_failRound (repeats : (discipline failSession).Neutral base again)
    (known : SessionState) : (discipline failSession).Neutral base (failRound again known) := by
  refine keeps_ite (fun _ => neutral_pure) fun alive => ?_
  exact keeps_check (neutral_transitionIf (legal_alive alive)) (fun _ => neutral_lawful trivial)
    fun _ => repeats

theorem neutral_failFrom (base : Lifecycle) (rounds : Nat) (known : SessionState) :
    (discipline failSession).Neutral base (failFrom rounds known) := by
  induction rounds generalizing known with
  | zero => exact neutral_failRound (@neutral_lawful _ _ .retry trivial) known
  | succ rounds ih =>
    exact neutral_failRound (neutral_bind (@neutral_lawful _ _ .state trivial) ih) known

theorem neutral_arrive {after : Lifecycle} {arrival : Arrival} {code : Routine Unit}
    (arrived : arrive failSession session arrival = some (after, code))
    (follows : Follows session) : Follows after ∧ (discipline failSession).Neutral after code := by
  cases arrival with
  | start =>
    cases arrived
    exact ⟨follows, neutral_start session⟩
  | pause =>
    cases arrived
    exact ⟨follows, neutral_pause session⟩
  | resume =>
    cases arrived
    exact ⟨follows, neutral_resume session⟩
  | stop rounds =>
    cases arrived
    refine ⟨follows, neutral_bind (neutral_lawful trivial) fun operation => ?_⟩
    exact neutral_bind (neutral_lawful trivial) (neutral_stopFrom session operation rounds)
  | nodeFailed rounds =>
    cases arrived
    refine ⟨follows, keeps_ite (fun _ => ?_) fun _ => neutral_pure⟩
    exact neutral_bind (neutral_lawful trivial) (neutral_failFrom session rounds)
  | allClosed =>
    simp only [arrive] at arrived
    split at arrived
    · cases arrived
    · cases arrived
      exact ⟨⟨follows.legal, follows.accepted⟩, neutral_onAllClosed _⟩
  | apply =>
    cases arrived
    exact ⟨follows, neutral_bind (neutral_lawful trivial) fun _ => neutral_pure⟩

/-- In every run in which each exchange finds the state its caller knows, the session
follows its state machine. -/
theorem state_machine_followed (failSession : Bool) {system : Running}
    (reached : Reached failSession undisturbed system) : Follows system.world := by
  have shared : Shared (discipline failSession) system := by
    refine reachable_shared (fun _ name => name.elim) ?_ ?_ reached
    · intro session others arrival after code follows _ arrived
      obtain ⟨kept, neutral⟩ := neutral_arrive arrived follows
      exact ⟨trivial, 0, kept, neutral⟩
    · rintro first rfl
      exact ⟨rfl, by decide, by decide⟩
  obtain ⟨_, _, _, follows⟩ := shared
  exact follows

theorem stopped_session_followed : ∃ system : Running, Reached true undisturbed system ∧
    system.world.past = [.starting, .running, .pausing, .paused, .stopping, .stopped] ∧
    system.world.mutations = [.running] ∧ Follows system.world := by
  have played : ((machine true).play undisturbed fresh (List.flatten
      [[.arrive .start], List.replicate 3 (.turn 0 true), [.arrive .apply, .turn 1 true],
        [.arrive .pause, .turn 2 true, .turn 2 true],
        [.arrive (.stop 0)], List.replicate 8 (.turn 3 true),
        [.arrive .allClosed], List.replicate 6 (.turn 4 true)])).map (fun system =>
          (system.world.past, system.world.mutations)) =
      some ([.starting, .running, .pausing, .paused, .stopping, .stopped], [.running]) := by
    decide +kernel
  obtain ⟨system, reached, seen⟩ := played_reached played
  obtain ⟨past, mutations⟩ := Prod.mk.inj seen
  exact ⟨system, reached, past, mutations, state_machine_followed true reached⟩

/-- A stop between the two halves of `Start`: the session is running again after it
was stopping. -/
theorem stop_during_start_revived : ∃ system : Running, Reached true {} system ∧
    .stopping ∈ system.world.past ∧ system.world.state = .running ∧ ¬ Follows system.world := by
  have played : ((machine true).play {} fresh
      [.arrive .start, .turn 0 true, .turn 0 true, .arrive (.stop 0), .turn 1 true, .turn 1 true,
        .turn 1 true, .turn 0 true]).map (fun system =>
          (system.world.past, system.world.state)) =
      some ([.starting, .stopping, .running], .running) := by
    decide +kernel
  obtain ⟨system, reached, seen⟩ := played_reached played
  obtain ⟨past, state⟩ := Prod.mk.inj seen
  refine ⟨system, reached, by simp [past], state, fun follows => ?_⟩
  have legal := follows.legal .stopping (by simp [past])
  rw [state] at legal
  exact absurd legal (by decide)

end GraphEngine.LifecycleRuns
