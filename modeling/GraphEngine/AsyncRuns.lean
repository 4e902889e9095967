import GraphEngine.DeliveryOrder
import GraphEngine.Ownership

/-!
Runs of the asynchronous runtime. Each thread holds the tokens of `AsyncBooks`; every
operation keeps the books and the provenance of the outputs, and, if requests of a node
are only accepted while its open requests are of the same version, their order.
-/

namespace GraphEngine.AsyncRuns

open NodeRuntimes EdgeQueues Interleavings Ownership Multiset
open AsyncRuntimes AsyncBooks AsyncProvenance DeliveryOrder

variable {setup : Setup} {rules : Rules Runtime Op Arrival} {request : Request}

/-- Requests of a node are accepted only while its open ones are of the same version. -/
def Agreeing (rules : Rules Runtime Op Arrival) : Prop :=
  ∀ runtime id args, rules.meets runtime (.insert id args) = true → oneVersion runtime args = true

structure Sound (rules : Rules Runtime Op Arrival) (runtime : Runtime) (share : Multiset Token) :
    Prop where
  accounts : Accounts runtime (tally share)
  provenance : Provenance runtime
  ordered : Agreeing rules → Ordered runtime share

theorem grows_expire (late : List ReorderKey) (runtime : Runtime) :
    Grows runtime (runtime.expireDeadlines late) := by
  refine List.foldlRecOn late _ (Grows.refl runtime) fun later grown key _ => ?_
  unfold Runtime.expireHead
  split
  · exact grown
  split
  · exact grown
  · exact ⟨grown.1, grown.2⟩

theorem grows_onCompletion (event : CompletionEvent) (runtime : Runtime) :
    Grows runtime (runtime.onCompletion event).1 := by
  unfold Runtime.onCompletion
  split
  · exact ⟨List.prefix_refl _, List.prefix_refl _⟩
  split
  · exact ⟨List.prefix_refl _, List.prefix_refl _⟩
  split
  · exact ⟨List.prefix_refl _, List.prefix_refl _⟩
  · exact ⟨List.prefix_refl _, List.prefix_append _ _⟩

variable {after : Runtime}

theorem grows_perform {runtime : Runtime} {op : Op} {choice : Choice} {answer : op.Answer}
    (performed : perform setup runtime op choice = some (after, answer)) : Grows runtime after := by
  have same (other : Runtime) (accepted : other.accepted = runtime.accepted)
      (answers : other.answers = runtime.answers) : Grows runtime other :=
    ⟨accepted ▸ List.prefix_refl _, answers ▸ List.prefix_refl _⟩
  cases op with
  | insert id args =>
    have grown : Grows runtime (runtime.insert setup id args).1 := by
      simp only [Runtime.insert]
      split
      · split <;> exact ⟨List.prefix_append _ _, List.prefix_refl _⟩
      · exact ⟨List.prefix_append _ _, List.prefix_refl _⟩
    have result : runtime.insert setup id args = (after, answer) := Option.some.inj performed
    rwa [result] at grown
  | onCompletion event =>
    have result : runtime.onCompletion event = (after, answer) := Option.some.inj performed
    have grown := grows_onCompletion event runtime
    rwa [result] at grown
  | expireDeadlines =>
    cases performed
    exact grows_expire choice.late runtime
  | takeReady =>
    rcases runtime.takeReady_cases with same' | ⟨key, entry, _, same'⟩ <;>
      simp only [perform, same'] at performed <;>
      obtain ⟨rfl, _⟩ := performed <;> exact same _ rfl rfl
  | detach session =>
    have grown : Grows runtime (runtime.detach session).1 := by
      unfold Runtime.detach
      split <;> exact same _ rfl rfl
    have result : runtime.detach session = (after, answer) := Option.some.inj performed
    rwa [result] at grown
  | park key session pushes =>
    cases performed
    unfold Runtime.park
    split <;> exact same _ rfl rfl
  | storeBlocked key still =>
    cases performed
    unfold Runtime.storeBlocked
    split <;> exact same _ rfl rfl
  | leaveAsyncPending n | pushEvent event =>
    simp only [perform] at performed
    split at performed <;> cases performed <;> exact same _ rfl rfl
  | lockSubmit | lockPump =>
    simp only [perform] at performed
    split at performed <;> cases performed
    exact same _ rfl rfl
  | retry => cases performed
  | _ =>
    cases performed
    exact same _ rfl rfl

def books (setup : Setup) (rules : Rules Runtime Op Arrival) :
    Discipline (asyncRuntime setup) rules (Multiset Token) where
  Holds := Sound rules
  Grows := Grows
  grows_refl := Grows.refl
  grows_trans earlier later := earlier.trans later
  grows _ performed := grows_perform performed

namespace Sound

variable {runtime : Runtime} {share others : Multiset Token}

/-- Nodes that count the same, locks of the submission, batches, edges, sessions and sinks
matter to none of the three. -/
theorem quiet (sound : Sound rules runtime share)
    (pending : ∀ n, (after.nodes n).asyncPending = (runtime.nodes n).asyncPending)
    (same : after = { runtime with
      nodes := after.nodes, submitLocked := after.submitLocked, batches := after.batches,
      edges := after.edges, sessions := after.sessions, sinks := after.sinks }) :
    Sound rules after share := by
  rw [same]
  refine ⟨sound.accounts.congr rfl pending rfl, sound.provenance.congr rfl, fun agreeing => ?_⟩
  exact (sound.ordered agreeing).congr .refl rfl rfl

theorem modifyEntry {id : Nat} {change : Entry → Entry} (sound : Sound rules runtime share)
    (same : ∀ entry, (change entry).toRequest = entry.toRequest)
    (done : ∀ entry, entry.done = true → (change entry).done = true)
    (result : ∀ entry event, (change entry).result = some event → entry.result = some event) :
    Sound rules (runtime.modifyEntry id change) share := by
  have requests : (runtime.modifyEntry id change).requests = runtime.requests :=
    Runtime.requests_modifyEntry same
  refine ⟨sound.accounts.congr requests (fun _ => rfl) rfl,
    sound.provenance.modifyEntry same done result, fun agreeing => ?_⟩
  exact (sound.ordered agreeing).congr .refl requests rfl

theorem expireDeadlines (late : List ReorderKey) (sound : Sound rules runtime share) :
    Sound rules (runtime.expireDeadlines late) share := by
  refine late.foldlRecOn (motive := (Sound rules · share)) _ sound fun runtime sound key _ => ?_
  unfold Runtime.expireHead
  split
  · exact sound
  split
  · exact sound
  · exact sound.modifyEntry (fun _ => rfl) (fun _ _ => rfl) (fun _ _ told => nomatch told)

theorem enqueue (sound : Sound rules runtime share) (event : CompletionEvent) :
    Sound rules (runtime.enqueue event) share := by
  refine ⟨sound.accounts.enqueue event, sound.provenance.congr rfl, fun agreeing => ?_⟩
  exact (sound.ordered agreeing).congr .refl rfl rfl

theorem trade {later : Multiset Token} (sound : Sound rules runtime share)
    (accounts : Accounts after (tally later)) (bare : Bare later share)
    (requests : after.requests = runtime.requests)
    (same : Ordered.records after = Ordered.records runtime)
    (known : Provenance.records after = Provenance.records runtime) : Sound rules after later :=
  ⟨accounts, sound.provenance.congr known,
    fun agreeing => (sound.ordered agreeing).congr bare requests same⟩

end Sound

def isPlain : Op → Bool
  | .leaveAsyncPending _ | .isCancelled _ | .state _ | .fail _ | .lockSubmit | .unlockSubmit
  | .markSubmitted _ | .operatorSubmit | .sinkSession _ | .pushEvent _ | .forcePush _
  | .takeDueBatches | .expireDeadlines | .retry => true
  | _ => false

theorem modifyNode_pending (runtime : Runtime) (n : NodeRef) {change : AsyncNode → AsyncNode}
    (same : ∀ node, (change node).asyncPending = node.asyncPending) (m : NodeRef) :
    ((runtime.modifyNode n change).nodes m).asyncPending = (runtime.nodes m).asyncPending := by
  rcases eq_or_ne m n with rfl | other
  · simp [Runtime.modifyNode, same]
  · simp [Runtime.modifyNode, other]

variable {token : Token} {pins : List (NodeRef × Nat)}

section Operations

variable {base : Runtime}

theorem neutral_plain {op : Op} (plain : isPlain op = true) :
    (books setup rules).Neutral base (atomic op) := by
  refine neutral_atomic fun runtime others choice after answer grown sound meets performed => ?_
  cases op with
  | leaveAsyncPending n =>
    simp only [asyncRuntime, perform] at performed
    split at performed <;> cases performed
    · exact sound.quiet (modifyNode_pending runtime n fun _ => rfl) rfl
    · exact sound
  | fail n =>
    cases performed
    exact sound.quiet (modifyNode_pending runtime n fun _ => rfl) rfl
  | lockSubmit =>
    simp only [asyncRuntime, perform] at performed
    split at performed <;> cases performed
    exact sound.quiet (fun _ => rfl) rfl
  | unlockSubmit | takeDueBatches =>
    cases performed
    exact sound.quiet (fun _ => rfl) rfl
  | markSubmitted id =>
    cases performed
    exact sound.modifyEntry (fun _ => rfl) (fun _ done => done) (fun _ _ told => told)
  | expireDeadlines =>
    cases performed
    exact sound.expireDeadlines choice.late
  | forcePush event =>
    cases performed
    exact sound.enqueue event
  | pushEvent event =>
    simp only [asyncRuntime, perform] at performed
    split at performed <;> cases performed
    · exact sound
    · exact sound.enqueue event
  | isCancelled n | state n | operatorSubmit | sinkSession sink =>
    cases performed
    exact sound
  | retry => cases performed
  | _ => cases plain

theorem trades_beginAsync (n : NodeRef) :
    (books setup rules).Trades base (.beginAsync n) 0 fun _ => {.begun n} := by
  intro runtime others choice after answer grown sound meets performed
  rw [zero_add] at sound
  rw [singleton_add]
  cases performed
  refine sound.trade ?_ (.cons .refl rfl) rfl rfl rfl
  rw [tally_cons]
  exact sound.accounts.beginAsync n

theorem trades_nextRequest :
    (books setup rules).Trades base .nextRequest 0 fun id => {.numbered id} := by
  intro runtime others choice after answer grown sound meets performed
  rw [zero_add] at sound
  rw [singleton_add]
  cases performed
  refine sound.trade ?_ (.cons .refl rfl) rfl rfl rfl
  rw [tally_cons]
  exact sound.accounts.nextRequest

theorem insert_accept (runtime : Runtime) (id : Nat) (args : SubmitArgs) :
    ∃ batches, (runtime.insert setup id args).1 =
      { runtime.accept (args.request id) with batches } := by
  simp only [Runtime.insert]
  split
  · split <;> exact ⟨_, rfl⟩
  · exact ⟨_, rfl⟩

theorem trades_insert (id : Nat) (args : SubmitArgs) :
    (books setup rules).Trades base (.insert id args) (.begun args.node ::ₘ {.numbered id})
      fun _ => 0 := by
  intro runtime others choice after answer grown sound meets performed
  rw [cons_add, singleton_add] at sound
  rw [zero_add]
  have accounts := sound.accounts
  rw [tally_cons, tally_cons] at accounts
  have fresh : ∀ other ∈ runtime.accepted, other.id ≠ id := by
    intro other inside same
    have numbered := accounts.numbered id
    have listed : 0 < runtime.accepted.countP fun request => request.id = id :=
      List.countP_pos_iff.mpr ⟨other, inside, by simpa using same⟩
    simp only [Tally.add, ↓reduceIte] at numbered
    omega
  have kept : Sound rules (runtime.accept (args.request id)) others := by
    refine ⟨@Accounts.accept runtime _ (args.request id) accounts, sound.provenance.accept fresh, ?_⟩
    intro agreeing
    have compatible := agreeing runtime id args meets
    simp only [oneVersion, Bool.and_eq_true, List.all_eq_true, Bool.or_eq_true,
      decide_eq_true_eq] at compatible
    refine (sound.ordered agreeing).accept sound.accounts sound.provenance fresh ?_ ?_
      (Bare.of_subset fun _ inside => by simp [inside])
    · intro other inside open_ same
      rcases compatible.1 other inside with (elsewhere | closed) | agrees
      · exact absurd same elsewhere
      · exact absurd closed open_
      · exact agrees
    · intro slot inside same
      exact (compatible.2 slot inside).resolve_left fun elsewhere => elsewhere same
  obtain ⟨batches, placed⟩ := @insert_accept setup runtime id args
  have result : runtime.insert setup id args = (after, answer) := Option.some.inj performed
  rw [result] at placed
  cases placed
  exact kept.quiet (fun _ => rfl) rfl

theorem trades_endAsync (request : Request) :
    (books setup rules).Trades base (.endAsync request) {.dropped request} fun _ => 0 := by
  intro runtime others choice after answer grown sound meets performed
  rw [singleton_add] at sound
  rw [zero_add]
  cases performed
  have accounts := sound.accounts
  rw [tally_cons] at accounts
  refine ⟨accounts.endAsync, sound.provenance.congr rfl, fun agreeing => ?_⟩
  exact (sound.ordered agreeing).shrink .tail
    (fun _ inside => inside) (fun _ inside => inside) (fun _ => List.Sublist.refl _)
    (fun _ inside => List.mem_append_left _ inside) rfl

theorem trades_finish (request : Request) :
    (books setup rules).Trades base (.endAsync request) {.delivering request}
      fun _ => {.pump []} := by
  intro runtime others choice after answer grown sound meets performed
  rw [singleton_add] at sound ⊢
  cases performed
  have accounts := sound.accounts
  rw [tally_cons] at accounts
  refine ⟨?_, sound.provenance.congr rfl, fun agreeing => ?_⟩
  · rw [tally_cons]
    exact Accounts.endAsync accounts
  · exact (sound.ordered agreeing).shrink
      (.cons .tail rfl)
      (fun _ inside => inside) (fun _ inside => inside) (fun _ => List.Sublist.refl _)
      (fun _ inside => List.mem_append_left _ inside) rfl

theorem trades_countDown (request : Request) :
    (books setup rules).Trades base (.countDown request) {.counted} fun _ => 0 := by
  intro runtime others choice after answer grown sound meets performed
  rw [singleton_add] at sound
  rw [zero_add]
  cases performed
  have accounts := sound.accounts
  rw [tally_cons] at accounts
  exact sound.trade accounts.countDown .tail rfl rfl rfl

theorem trades_lockPump : (books setup rules).Trades base .lockPump 0 fun _ => {.pump []} := by
  intro runtime others choice after answer grown sound meets performed
  rw [zero_add] at sound
  rw [singleton_add]
  simp only [asyncRuntime, perform] at performed
  split at performed <;> cases performed
  next free =>
    refine sound.trade ?_ (.cons .refl rfl) rfl rfl rfl
    rw [tally_cons]
    exact sound.accounts.lockPump (by simpa using free)

theorem trades_unlockPump : (books setup rules).Trades base .unlockPump {.pump []} fun _ => 0 := by
  intro runtime others choice after answer grown sound meets performed
  rw [singleton_add] at sound
  rw [zero_add]
  cases performed
  have accounts := sound.accounts
  rw [tally_cons] at accounts
  exact sound.trade accounts.unlockPump .tail rfl rfl rfl

theorem trades_drainAll (pins : List (NodeRef × Nat)) :
    (books setup rules).Trades base .drainAll {.pump pins}
      fun events => .pump [] ::ₘ eventTokens events := by
  intro runtime others choice after answer grown sound meets performed
  rw [singleton_add] at sound
  rw [cons_add]
  cases performed
  have accounts := sound.accounts
  rw [tally_cons] at accounts
  refine sound.trade ?_ (.cons ?_ rfl) rfl rfl rfl
  · rw [tally_cons, tally_events]
    exact accounts.drainAll
  · intro token inside
    rcases mem_add.mp inside with drained | kept
    · obtain ⟨event, _, rfl⟩ := List.mem_map.mp drained
      exact .inr rfl
    · exact .inl (mem_cons_of_mem kept)

theorem trades_onCompletion (event : CompletionEvent) :
    (books setup rules).Trades base (.onCompletion event) {.event event.ticket} fun _ => 0 := by
  intro runtime others choice after answer grown sound meets performed
  rw [singleton_add] at sound
  rw [zero_add]
  have accounts := sound.accounts
  rw [tally_cons] at accounts
  have orphaned : Sound rules (runtime.orphan event) others :=
    sound.trade accounts.orphan .tail rfl rfl rfl
  have kept : Sound rules (runtime.onCompletion event).1 others := by
    unfold Runtime.onCompletion
    split
    · exact orphaned
    rename_i entry found
    obtain ⟨inside, named⟩ := Runtime.find_mem found
    split
    · exact orphaned
    rename_i open_
    split
    · exact orphaned
    rename_i agrees
    refine ⟨accounts.answer, sound.provenance.answer sound.accounts inside named.symm
      (by simpa using open_) (by simpa using agrees), fun agreeing => ?_⟩
    exact (sound.ordered agreeing).congr .tail
      (Runtime.requests_answer runtime event entry) rfl
  have result : runtime.onCompletion event = (after, answer) := Option.some.inj performed
  rwa [result] at kept

theorem trades_detach (session : Nat) : (books setup rules).Trades base (.detach session) 0
      fun dropped => droppedTokens (dropped.map Entry.toRequest) := by
  intro runtime others choice after answer grown sound meets performed
  rw [zero_add] at sound
  have kept : Sound rules (runtime.detach session).1
      (droppedTokens ((runtime.detach session).2.map Entry.toRequest) + others) := by
    refine ⟨?_, sound.provenance.detach session, fun agreeing => ?_⟩
    · rw [tally_droppeds]
      exact sound.accounts.detach session
    · refine (sound.ordered agreeing).detach session ?_
      intro token inside
      rcases mem_add.mp inside with fresh | old
      · obtain ⟨request, _, named⟩ := List.mem_flatMap.mp fresh
        rcases List.mem_pair.mp named with rfl | rfl
        · exact .inr rfl
        · exact .inr rfl
      · exact .inl old
  have result : runtime.detach session = (after, answer) := Option.some.inj performed
  rwa [result] at kept

def pinsOf (slots : List (ReorderKey × BlockedOutput)) : List (NodeRef × Nat) :=
  slots.flatMap fun slot => slot.2.pushes.map fun parcel => (parcel.tag.node, parcel.tag.request)

theorem learns_blockedOutputs :
    (books setup rules).Learns base .blockedOutputs {.pump []} (fun slots => {.pump (pinsOf slots)})
      fun slots after => ∀ slot ∈ slots, ∀ parcel ∈ slot.2.pushes,
        Known after parcel.tag ∧ parcel.tag.node = slot.1.1 := by
  intro runtime others choice after answer grown sound meets performed
  rw [singleton_add] at sound ⊢
  cases performed
  have accounts := sound.accounts
  rw [tally_cons] at accounts
  refine ⟨⟨by rwa [tally_cons], sound.provenance, fun agreeing => ?_⟩, sound.provenance.blocked⟩
  have ordered := sound.ordered agreeing
  refine { ordered with pins := ?_ }
  intro token inside pin named
  rcases mem_cons.mp inside with rfl | kept
  · obtain ⟨slot, listed, sent⟩ := List.mem_flatMap.mp named
    obtain ⟨parcel, member, rfl⟩ := List.mem_map.mp sent
    exact ordered.parked slot listed parcel member
  · exact ordered.pins token (mem_cons_of_mem kept) pin named

def Own (base : Runtime) (token : Token) (parcel : Parcel) : Prop :=
  Known base parcel.tag ∧ (parcel.tag.node, parcel.tag.request) ∈ pinned token

theorem trades_push {parcel : Parcel} (own : Own base token parcel) :
    (books setup rules).Trades base (.push parcel) {token} fun _ => {token} := by
  intro runtime others choice after answer grown sound meets performed
  have kept : Sound rules (runtime.pushEdge parcel).1 (token ::ₘ others) := by
    refine ⟨sound.accounts.congr rfl (fun _ => rfl) rfl,
      sound.provenance.pushEdge (own.1.later grown), fun agreeing => ?_⟩
    have ordered := sound.ordered agreeing
    exact ordered.pushEdge (ordered.pins token (mem_cons_self _ _) _ own.2)
  have result : runtime.pushEdge parcel = (after, answer) := Option.some.inj performed
  rwa [result] at kept

theorem trades_storeBlocked {key : ReorderKey} {still : List Parcel}
    (own : ∀ parcel ∈ still, Own base (.pump pins) parcel ∧ parcel.tag.node = key.1) :
    (books setup rules).Trades base (.storeBlocked key still) {.pump pins}
      fun _ => {.pump pins} := by
  intro runtime others choice after answer grown sound meets performed
  cases performed
  refine ⟨?_, sound.provenance.storeBlocked fun parcel inside =>
    ⟨(own parcel inside).1.1.later grown, (own parcel inside).2⟩, fun agreeing => ?_⟩
  · unfold Runtime.storeBlocked
    split <;> exact sound.accounts.congr rfl (fun _ => rfl) rfl
  · have ordered := sound.ordered agreeing
    exact ordered.storeBlocked fun parcel inside =>
      ordered.pins _ (mem_cons_self _ _) _ (own parcel inside).1.2

theorem trades_park {pushes : List Parcel}
    (own : ∀ parcel ∈ pushes, Own base (.delivering request) parcel) :
    (books setup rules).Trades base (.park request.key request.session pushes)
      {.delivering request} fun _ => {.delivering request} := by
  intro runtime others choice after answer grown sound meets performed
  cases performed
  have held : 0 < (tally (.delivering request ::ₘ others)).held request := by
    simp
  refine ⟨?_, sound.provenance.park request.session fun parcel inside =>
    ⟨(own parcel inside).1.later grown, ?_⟩, fun agreeing => ?_⟩
  · unfold Runtime.park
    split <;> exact sound.accounts.congr rfl (fun _ => rfl) rfl
  · exact congrArg Prod.fst (List.mem_singleton.mp (own parcel inside).2)
  · have ordered := sound.ordered agreeing
    obtain ⟨accepted, unretired⟩ := sound.accounts.accepted_of_held held
    exact ordered.park request.session accepted unretired fun parcel inside =>
      ordered.pins _ (mem_cons_self _ _) _ (own parcel inside).2

def Deliverable (runtime : Runtime) (entry : Entry) : Prop :=
  (∃ request ∈ runtime.accepted, request.id = entry.id ∧ request.node = entry.node) ∧
    ∀ event, entry.result = some event →
      Known runtime { node := entry.node, request := entry.id, ticket := some event.ticket }

theorem learns_takeReady : (books setup rules).Learns base .takeReady {.pump []} (fun
        | none => {.pump []}
        | some entry => .counted ::ₘ {.delivering entry.toRequest})
      fun answer after => ∀ entry, answer = some entry → Deliverable after entry := by
  intro runtime others choice after answer grown sound meets performed
  rw [singleton_add] at sound
  have provenance := sound.provenance.skipDropped
  have accounts : Accounts runtime.skipDropped (tally (.pump [] ::ₘ others)) :=
    sound.accounts.congr rfl (fun _ => rfl) rfl
  rcases runtime.takeReady_cases with nothing | ⟨key, entry, ready, taken⟩
  · have result : (runtime.skipDropped, none) = (after, answer) := by
      rw [← nothing]
      exact Option.some.inj performed
    cases result
    refine ⟨?_, fun _ told => nomatch told⟩
    exact ⟨accounts, provenance, fun agreeing => (sound.ordered agreeing).skipDropped⟩
  · have result : (runtime.skipDropped.take key entry, some entry) = (after, answer) := by
      rw [← taken]
      exact Option.some.inj performed
    cases result
    have alone : ∀ token ∈ others, pinned token = [] := by
      intro token inside
      have none_else : ∀ other ∈ others, other.isPump = false := by
        intro other member
        by_contra second
        have positive : 0 < (tally others).pump :=
          countP_pos.mpr ⟨other, member, by simpa using second⟩
        have locked := sound.accounts.locked
        rw [tally_cons] at locked
        simp only [Tally.add] at locked
        split at locked <;> omega
      have plain := none_else token inside
      cases token <;> first | rfl | cases plain
    refine ⟨?_, ?_⟩
    · simp only [cons_add, singleton_add]
      refine ⟨?_, provenance.take ready.head, fun agreeing => ?_⟩
      · have moved := accounts.take key ready.inside
        rw [tally_cons] at moved
        rw [tally_cons, tally_cons]
        exact moved
      · refine (sound.ordered agreeing).skipDropped.take accounts provenance ready ?_
        intro token inside
        rcases mem_cons.mp inside with rfl | inside
        · exact .inr rfl
        · rcases mem_cons.mp inside with rfl | inside
          · exact .inl rfl
          · exact .inr (alone token inside)
    · rintro same told
      cases told
      have listed := (accounts.accepted_of_flight (Runtime.mem_requests ready.inside)).1
      refine ⟨⟨_, listed, rfl, rfl⟩, fun event given => ⟨⟨_, listed, rfl, rfl⟩, ?_⟩⟩
      rintro ticket ⟨⟩
      obtain ⟨answered, member, rfl, same⟩ := provenance.results _ ready.inside event given
      exact ⟨answered, member, rfl, congrArg Request.id same, congrArg Request.node same⟩

end Operations

variable {event : CompletionEvent}

section Code

variable {base : Runtime}

theorem neutral_failNode (n : NodeRef) : (books setup rules).Neutral base (failNode n) :=
  neutral_bind (neutral_plain rfl) fun _ =>
    keeps_ite (fun _ => neutral_pure) fun _ => neutral_plain rfl

theorem neutral_flushEntry (request : Request) :
    (books setup rules).Neutral base (flushEntry request) := by
  have refused : (books setup rules).Neutral base (refuses request.node) :=
    neutral_bind (neutral_plain rfl) fun _ =>
      keeps_ite (fun _ => neutral_pure)
        fun _ => neutral_bind (neutral_plain rfl) fun _ => neutral_pure
  refine keeps_check refused (fun _ => ?_) fun _ => neutral_pure
  exact neutral_bind (neutral_plain rfl) fun _ => neutral_bind (neutral_plain rfl) fun _ =>
    keeps_ite (fun _ => neutral_pure) fun _ => neutral_pure

theorem neutral_flushMember (id : Nat) : (books setup rules).Neutral base (flushMember id) := by
  refine neutral_bind (neutral_plain rfl) fun found => ?_
  cases found with
  | none => exact neutral_pure
  | some entry => exact neutral_flushEntry entry.toRequest

theorem neutral_flushMembers (members : List Nat) :
    (books setup rules).Neutral base (flushMembers members) := by
  induction members with
  | nil => exact neutral_pure
  | cons id rest ih =>
    exact neutral_bind (neutral_flushMember id) fun _ => neutral_bind ih fun _ => neutral_pure

theorem neutral_flushBatch (members : List Nat) :
    (books setup rules).Neutral base (flushBatch members) :=
  keeps_ite (fun _ => neutral_pure) fun _ =>
    neutral_bind (neutral_plain rfl) fun _ => neutral_bind (neutral_flushMembers members) fun _ =>
      neutral_bind (neutral_each fun n _ => neutral_failNode n) fun _ => neutral_plain rfl

theorem neutral_submit (args : SubmitArgs) : (books setup rules).Neutral base (submit args) := by
  refine keeps_atomic (trades_beginAsync args.node) fun _ => ?_
  have numbered (id : Nat) : (books setup rules).Ends base
      (atomic (.insert id args) >>= flushBatch) (.begun args.node ::ₘ {.numbered id}) :=
    keeps_atomic (trades_insert id args) fun members => neutral_flushBatch members
  have framed := trades_frame (@trades_nextRequest setup rules base) {.begun args.node}
  refine keeps_atomic framed fun id => ?_
  rw [add_comm]
  exact numbered id

theorem neutral_complete (sink : Nat) (event : CompletionEvent) :
    (books setup rules).Neutral base (complete sink event) := by
  refine neutral_bind (neutral_plain rfl) fun found => ?_
  cases found with
  | none => exact neutral_pure
  | some session => exact neutral_plain rfl

theorem keeps_endAsync {mine later : Multiset Token}
    (ends : (books setup rules).Trades base (.endAsync request) mine fun _ => later) :
    (books setup rules).Keeps (fun _ _ share => share = later) base (endAsync request) mine := by
  refine keeps_atomic ends fun _ => ?_
  exact keeps_neutral (neutral_plain rfl) fun _ => fun _ _ => rfl

theorem ends_dropEntry (request : Request) :
    (books setup rules).Ends base (dropEntry request) (.counted ::ₘ {.dropped request}) := by
  have framed := trades_frame (@trades_countDown setup rules base request) {.dropped request}
  exact keeps_atomic framed fun _ => keeps_endAsync (trades_endAsync request)

theorem neutral_detachSession (session : Nat) :
    (books setup rules).Neutral base (detachSession session) := by
  refine keeps_atomic (trades_detach session) fun dropped => ?_
  refine keeps_each (fun rest => droppedTokens rest) (dropped.map Entry.toRequest) ?_
  intro request rest
  have framed := keeps_aside (@ends_dropEntry setup rules base request) (droppedTokens rest)
  rwa [cons_add] at framed

theorem keeps_pushAll (parcels : List Parcel) (own : ∀ parcel ∈ parcels, Own base token parcel) :
    (books setup rules).Keeps (fun blocked _ later => later = {token} ∧
      ∀ parcel ∈ blocked, Own base token parcel) base (pushAll parcels) {token} := by
  induction parcels with
  | nil => exact fun _ _ => ⟨rfl, by simp⟩
  | cons parcel rest ih =>
    refine keeps_atomic (trades_push (own parcel (by simp))) fun outcome => ?_
    refine keeps_given (ih fun other inside => own other (by simp [inside])) fun blocked kept => ?_
    refine fun _ _ => ⟨rfl, fun other inside => ?_⟩
    split at inside
    · rcases List.mem_cons.mp inside with rfl | old
      · exact own _ (by simp)
      · exact kept other old
    · exact kept other inside

theorem own_parcels {ticket : Option Nat} (port : String) (packet : Packet)
    (known : Known base { node := request.node, request := request.id, ticket }) :
    ∀ parcel ∈ parcels setup request ticket port packet, Own base (.delivering request) parcel := by
  intro parcel inside
  obtain ⟨edge, _, rfl⟩ := List.mem_map.mp inside
  exact ⟨known, List.mem_singleton.mpr rfl⟩

theorem keeps_deliverOutputs {ticket : Nat}
    (known : Known base { node := request.node, request := request.id, ticket := some ticket })
    (outputs : List CompletionOutput) (parked : List Parcel)
    (own : ∀ parcel ∈ parked, Own base (.delivering request) parcel) :
    (books setup rules).Keeps (fun result _ later => later = {.delivering request} ∧
      ∀ kept, result = some kept → ∀ parcel ∈ kept, Own base (.delivering request) parcel) base
      (deliverOutputs setup request ticket outputs parked) {.delivering request} := by
  induction outputs generalizing parked with
  | nil =>
    refine fun _ _ => ⟨rfl, ?_⟩
    rintro kept ⟨⟩
    exact own
  | cons output rest ih =>
    have mine := @own_parcels setup request base (some ticket) output.port output.packet known
    have joined {more : List Parcel} (also : ∀ parcel ∈ more, Own base (.delivering request) parcel) :
        ∀ parcel ∈ parked ++ more, Own base (.delivering request) parcel :=
      List.forall_mem_append.mpr ⟨own, also⟩
    refine keeps_ite (fun _ => ih parked own) fun _ => ?_
    refine keeps_ite (fun _ => ih _ (joined mine)) fun _ => ?_
    refine keeps_check (neutral_plain rfl) (fun _ => ih parked own) fun _ => ?_
    refine keeps_ite (fun _ => ?_) fun _ => ?_
    · exact keeps_neutral (neutral_failNode _) fun _ => fun _ _ => ⟨rfl, nofun⟩
    · exact keeps_given (keeps_pushAll _ mine) fun blocked kept => ih _ (joined kept)

theorem keeps_deliverResult (known : Known base
      { node := request.node, request := request.id, ticket := some event.ticket }) :
    (books setup rules).Stays base (deliverResult setup request event) {.delivering request} := by
  refine keeps_given (keeps_deliverOutputs known event.outputs [] (by simp)) fun result own => ?_
  cases result with
  | none => exact fun _ _ => rfl
  | some parked =>
    exact keeps_ite (fun _ => fun _ _ => rfl) fun _ => keeps_act (trades_park (own parked rfl))

theorem keeps_deliverEntry (known : Known base
      { node := request.node, request := request.id, ticket := some event.ticket }) :
    (books setup rules).Stays base (deliverEntry setup request event) {.delivering request} := by
  have done : (books setup rules).Stays base (pure () : Routine Unit) {.delivering request} :=
    fun _ _ => rfl
  refine keeps_ite (fun _ => ?_) fun _ => ?_
  · refine keeps_check (neutral_plain rfl) (fun _ => done) fun _ => ?_
    exact neutral_aside (neutral_failNode request.node) {Token.delivering request}
  · refine keeps_check (neutral_plain rfl) (fun _ => done) fun _ => ?_
    refine keeps_check (neutral_plain rfl) (fun _ => done) fun _ => ?_
    refine keeps_check (neutral_plain rfl) (fun _ => done) fun _ => ?_
    exact keeps_deliverResult known

theorem keeps_emitGap
    (known : Known base { node := request.node, request := request.id, ticket := none }) :
    (books setup rules).Stays base (emitGap setup request) {.delivering request} := by
  refine keeps_check (neutral_plain rfl) (fun _ => fun _ _ => rfl) fun _ => ?_
  refine keeps_each (fun _ => {Token.delivering request}) _ fun port _ => ?_
  refine keeps_check (neutral_plain rfl) (fun _ => fun _ _ => rfl) fun _ => ?_
  exact keeps_given (keeps_pushAll _ (own_parcels port _ known)) fun _ _ => fun _ _ => rfl

theorem keeps_deliver {entry : Entry} (known : Deliverable base entry) :
    (books setup rules).Stays base (deliver setup entry) {.delivering entry.toRequest} := by
  unfold deliver
  split
  · next event given => exact keeps_deliverEntry (known.2 event given)
  · exact keeps_emitGap ⟨known.1, nofun⟩

abbrev Pumps (setup : Setup) (rules : Rules Runtime Op Arrival) (base : Runtime)
    (code : Routine Unit) : Prop :=
  (books setup rules).Stays base code {.pump []}

theorem pumps_deliverRound {again : Routine Unit} (pumps : ∀ base, Pumps setup rules base again) :
    Pumps setup rules base (deliverRound setup again) := by
  refine keeps_learns 0 learns_takeReady (add_zero _).symm fun answer after grown learned => ?_
  cases answer with
  | none => exact fun _ _ => rfl
  | some entry =>
    have known := learned entry rfl
    have counted := trades_frame (@trades_countDown setup rules after entry.toRequest)
      {.delivering entry.toRequest}
    refine keeps_atomic counted fun _ => ?_
    refine keeps_then (keeps_deliver known) fun _ => ?_
    exact keeps_then (keeps_endAsync (trades_finish entry.toRequest)) fun _ => pumps after

theorem pumps_deliverReady (rounds : Nat) : Pumps setup rules base (deliverReady setup rounds) := by
  induction rounds generalizing base with
  | zero => exact pumps_deliverRound fun _ => neutral_aside (neutral_plain rfl) _
  | succ rounds ih => exact pumps_deliverRound fun _ => ih

theorem keeps_retryPushes (cancelled : Bool) (parcels still : List Parcel) (shown : Parcel → Prop)
    (own : ∀ parcel ∈ parcels, Own base token parcel ∧ shown parcel)
    (kept : ∀ parcel ∈ still, Own base token parcel ∧ shown parcel) :
    (books setup rules).Keeps (fun left _ later => later = {token} ∧
      ∀ parcel ∈ left, Own base token parcel ∧ shown parcel) base
      (retryPushes cancelled parcels still) {token} := by
  induction parcels generalizing still with
  | nil => exact fun _ _ => ⟨rfl, kept⟩
  | cons parcel rest ih =>
    have others : ∀ other ∈ rest, Own base token other ∧ shown other :=
      fun other inside => own other (by simp [inside])
    have first := own parcel (by simp)
    have longer : ∀ other ∈ still ++ [parcel], Own base token other ∧ shown other := by
      exact List.forall_mem_append.mpr ⟨kept, List.forall_mem_singleton.mpr first⟩
    refine keeps_ite (fun _ => ih still others kept) fun _ => ?_
    refine keeps_ite (fun _ => ih _ others longer) fun _ => ?_
    refine keeps_atomic (trades_push first.1) fun outcome => ih _ others ?_
    split
    · exact longer
    · exact kept

theorem keeps_retryBlockedOutput {slot : ReorderKey × BlockedOutput}
    (own : ∀ parcel ∈ slot.2.pushes, Own base (.pump pins) parcel ∧ parcel.tag.node = slot.1.1) :
    (books setup rules).Stays base (retryBlockedOutput slot) {.pump pins} := by
  refine keeps_neutral (neutral_plain rfl) fun cancelled => ?_
  exact keeps_given (keeps_retryPushes cancelled slot.2.pushes []
    (fun parcel => parcel.tag.node = slot.1.1) own (by simp))
    fun still left => keeps_act (trades_storeBlocked left)

theorem keeps_drainCompletion (rounds : Nat) (event : CompletionEvent)
    (rest : List CompletionEvent) :
    (books setup rules).Keeps (fun _ _ later => later = .pump [] ::ₘ eventTokens rest) base
      (drainCompletion setup rounds event) (.pump [] ::ₘ eventTokens (event :: rest)) := by
  have answered := trades_frame (@trades_onCompletion setup rules base event)
    (.pump [] ::ₘ eventTokens rest)
  rw [singleton_add, cons_swap] at answered
  refine keeps_atomic answered fun failed => ?_
  have delivered : (books setup rules).Stays base (deliverReady setup rounds)
      (.pump [] ::ₘ eventTokens rest) := by
    have framed := keeps_aside (@pumps_deliverReady setup rules base rounds) (eventTokens rest)
    rwa [singleton_add] at framed
  cases failed with
  | none => exact delivered
  | some n => exact keeps_neutral (neutral_failNode n) fun _ => delivered

theorem neutral_pump (rounds : Nat) : (books setup rules).Neutral base (pump setup rounds) := by
  refine keeps_atomic trades_lockPump fun _ => ?_
  refine keeps_neutral (neutral_plain rfl) fun due => ?_
  refine keeps_neutral (neutral_each fun members _ => neutral_flushBatch members) fun _ => ?_
  refine keeps_learns 0 learns_blockedOutputs (add_zero _).symm fun slots after grown known => ?_
  have retried : (books setup rules).Stays after (Code.each retryBlockedOutput slots)
      {.pump (pinsOf slots)} := by
    have loop (part : List (ReorderKey × BlockedOutput)) (inside : ∀ slot ∈ part, slot ∈ slots) :
        (books setup rules).Stays after (Code.each retryBlockedOutput part)
          {.pump (pinsOf slots)} := by
      induction part with
      | nil => exact fun _ _ => rfl
      | cons slot rest ih =>
        have listed := inside slot (by simp)
        refine keeps_then (keeps_retryBlockedOutput fun parcel sent => ?_)
          fun _ => ih fun other member => inside other (by simp [member])
        refine ⟨⟨(known slot listed parcel sent).1, ?_⟩, (known slot listed parcel sent).2⟩
        exact List.mem_flatMap.mpr ⟨slot, listed, List.mem_map.mpr ⟨parcel, sent, rfl⟩⟩
    exact loop slots fun _ member => member
  refine keeps_then retried fun _ => ?_
  refine keeps_atomic (trades_drainAll _) fun events => ?_
  refine keeps_then (keeps_each (fun rest => .pump [] ::ₘ eventTokens rest) events
    fun event rest => keeps_drainCompletion rounds event rest) fun _ => ?_
  refine keeps_neutral (neutral_plain rfl) fun _ => ?_
  exact keeps_then (pumps_deliverReady rounds) fun _ => ends_act trades_unlockPump

end Code

theorem sound_fresh (edges : ChannelRef → EdgeQueue) : Sound rules (fresh edges) 0 := by
  refine ⟨?_, ?_, fun _ => ?_⟩
  · constructor <;> simp [fresh, tally, Runtime.requests]
  · constructor <;> simp [fresh]
  · constructor <;> simp [fresh]

theorem reached_shared {system : Running} (reached : Reached setup rules system) :
    Shared (books setup rules) system := by
  refine reachable_shared (fun _ name => nomatch name) ?_ ?_ reached
  · intro runtime others arrival after code sound admitted arrived
    have here := Grows.refl runtime
    cases arrival with
    | submit args =>
      cases arrived
      exact ⟨here, 0, by rwa [zero_add], neutral_submit args⟩
    | pump rounds =>
      cases arrived
      exact ⟨here, 0, by rwa [zero_add], neutral_pump rounds⟩
    | detach session =>
      cases arrived
      exact ⟨here, 0, by rwa [zero_add], neutral_detachSession session⟩
    | complete sink event =>
      cases arrived
      exact ⟨here, 0, by rwa [zero_add], neutral_complete sink event⟩
    | attach session batching | edge e call =>
      cases arrived
      refine ⟨⟨List.prefix_refl _, List.prefix_refl _⟩, 0, ?_, neutral_pure⟩
      rw [zero_add]
      exact Sound.quiet sound (fun _ => rfl) rfl
    | cancel n | setState n state =>
      cases arrived
      refine ⟨⟨List.prefix_refl _, List.prefix_refl _⟩, 0, ?_, neutral_pure⟩
      rw [zero_add]
      exact Sound.quiet sound (modifyNode_pending runtime n fun _ => rfl) rfl
  · rintro system ⟨alone, edges, same⟩
    refine ⟨alone, ?_⟩
    rw [same]
    exact sound_fresh edges

end GraphEngine.AsyncRuns
