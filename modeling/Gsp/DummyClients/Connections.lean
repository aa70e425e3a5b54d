import Gsp.DummyClients.Completions
import Gsp.Lib.LockOrder

/-!
# What holds in every run of the dummy clients

Any number of workers and the main thread, with every operation of one between those of
the others: each session receives and prints what it would on its own, sends its login
once, and gives up its last reference when nothing of the connection is left. That can
happen twice: `FlushSend` looks at `mConnected` before it adds its reference, and the
session may be released in between. Nothing but the call of a socket option can fail an
assertion, and no thread waits forever.
-/

namespace Gsp.DummyClients

open DummyClient MyPacket Tokens

/-! ## The start -/

section Start

variable {workers connections : ℕ}

/-- A thread with tokens and nothing else. -/
def Ghost.holding (tokens : Multiset (ClientId connections × Token)) : Ghost connections :=
  ⟨[], tokens, none, none, none, none⟩

/-- The main thread may connect each session. -/
def Ghost.start : Thread workers → Ghost connections
  | none => .holding ((List.finRange connections).map fun client => own client {.fresh}).sum
  | some _ => .holding 0

theorem Knows.start {process : Process workers connections} {thread : Thread workers}
    (none_listed : process.requests thread = []) (tokens : Multiset (ClientId connections × Token))
    (counted : ∀ client, tokens.count (client, .uncounted) = 0) :
    Knows process thread (.holding tokens) where
  distinct := List.nodup_nil
  requests := by
    refine ⟨[], none_listed, ?_⟩
    intro client
    exact Nat.zero_le _
  receive := nofun
  send := nofun
  closed := nofun
  counting client positive := by
    rw [Ghost.share] at positive
    exact absurd (counted client) positive.ne'

theorem count_fresh (client : ClientId connections) (token : Token) :
    ((List.finRange connections).map fun client => own client {.fresh}).sum.count (client, token) =
      amount {.fresh} token := by
  have once : ∀ clients : List (ClientId connections), clients.Nodup →
      (clients.map fun client => own client {.fresh}).sum.count (client, token) =
        if client ∈ clients then amount {.fresh} token else 0 := by
    intro clients distinct
    induction clients with
    | nil => rfl
    | cons other clients ih =>
        rcases List.nodup_cons.mp distinct with ⟨new, distinct⟩
        rw [List.map_cons, List.sum_cons, Multiset.count_add, ih distinct]
        by_cases same : client = other
        · subst same
          rw [count_own, if_neg new, if_pos List.mem_cons_self, add_zero]
        · rw [count_own_of_ne _ _ same, zero_add]
          simp only [List.mem_cons, same, false_or]
  rw [once _ (List.nodup_finRange connections), if_pos (List.mem_finRange client)]

/-- At the start the main thread owns every token. -/
theorem total_start (client : ClientId connections) :
    Shares.total (Ghost.share client) (Ghost.start : Thread workers → Ghost connections) =
      amount {.fresh} := by
  have nothing : Shares.others (Ghost.share client) none
      (Ghost.start : Thread workers → Ghost connections) = 0 := by
    apply Shares.others_induction (Ghost.share client) Ghost.start (· = 0)
    · rfl
    · rintro _ _ rfl rfl
      exact add_zero 0
    · intro thread ne
      cases thread with
      | none => exact absurd rfl ne
      | some worker => rfl
  rw [Shares.total_eq _ none, nothing, zero_add]
  exact funext (count_fresh client)

/-- A new session keeps the law. -/
theorem Law.construct (spares : Prop) (packets : List Packet) (client : ClientId connections)
    (raw rawSend : ℕ → UInt8) :
    Law spares packets client (.construct connections raw rawSend) (amount {.fresh}) where
  counted := by simp [Session.construct, amount]
  connecting := by simp [Session.construct, amount]
  receiving := by simp [amount]
  requesting := by simp [Session.construct, amount]
  pending := by simp [Session.construct, amount]
  nonneg := Int.le_refl 0
  unused _ := rfl
  releases := by simp [Session.construct, amount]
  once _ := by simp [Session.construct, amount]
  blank _ := ⟨rawSend, rfl⟩
  loaded positive := by simp [amount] at positive
  quiet _ := ⟨.ofInitial ⟨raw, rfl⟩, rfl⟩
  ready := nofun
  follows := ⟨⟨.connected raw, []⟩, .ofInitial ⟨raw, rfl⟩, rfl, rfl⟩

/-- At the start the tokens are accounted for. -/
theorem Guarded.start (spares : Prop) (packets : ClientId connections → List Packet)
    (raw rawSend : ClientId connections → ℕ → UInt8) :
    Guarded spares packets (.start workers raw rawSend) Ghost.start where
  owners lock thread := by
    cases thread <;> exact ⟨nofun, nofun⟩
  law client := by
    rw [total_start]
    exact Law.construct spares (packets client) client (raw client) (rawSend client)
  knows thread := by
    cases thread with
    | none =>
        apply Knows.start rfl
        intro client
        exact count_fresh client .uncounted
    | some worker =>
        apply Knows.start rfl
        intro client
        rfl

end Start

/-! ## What a step needs -/

section Runs

variable {workers connections : ℕ}

/-- The dummy clients with the code their threads have to run. -/
abbrev Running (workers connections : ℕ) : Type :=
  Config (Thread workers) Mode (Process workers connections) (@Operation.Result connections)

variable {packets : ClientId connections → List Packet} {config : Running workers connections}
  {thread : Thread workers} {operation : Operation connections} {client : ClientId connections}

/-- Before the first operation every thread is sound, whatever is considered. -/
theorem exists_ghosts_start (spares : Prop) {process : Process workers connections}
    (start : ∃ raw rawSend, process = .start workers raw rawSend) :
    ∃ ghosts, (discipline workers spares packets).Inv process ghosts ∧
      ∀ thread : Thread workers, (Mode.start thread).Ends thread (ghosts thread) := by
  rcases start with ⟨raw, rawSend, rfl⟩
  refine ⟨_, Guarded.start spares packets raw rawSend, ?_⟩
  intro thread
  cases thread with
  | none => exact ⟨⟨rfl, rfl⟩, fun _ _ => rfl⟩
  | some worker => exact ⟨⟨rfl, rfl⟩, nofun⟩

/-- The program is sound in every reachable state. -/
theorem sound_of_reachable (reachable : (dummyClients workers packets).Reachable config) :
    (program workers packets).Sound (discipline workers False packets)
      (fun thread mode ghost => mode.Ends thread ghost) config := by
  refine Program.sound_of_reachable ?_ ?_ ?_ reachable
  · intro _ _ _
    exact False.elim
  · intro thread mode ghost ends
    exact secure_body mode ends
  · intro process start
    exact exists_ghosts_start False start

/-- What an operation asks of the process holds when a thread is about to perform it. -/
theorem fine_of_reachable (reachable : (dummyClients workers packets).Reachable config)
    (about : (config.code thread).nextOp = some operation) :
    config.state.Fine thread operation := by
  cases code : config.code thread with
  | done mode =>
      rw [code] at about
      cases about
  | call op next =>
      rw [code] at about
      cases about
      exact (sound_of_reachable reachable).fine code

/-- In every reachable state every session keeps the law. -/
theorem law_of_reachable (reachable : (dummyClients workers packets).Reachable config)
    (client : ClientId connections) :
    ∃ others, Law False (packets client) client (config.state.session client)
      (others + (config.state.session client).carried) := by
  rcases sound_of_reachable reachable with ⟨ghosts, guarded, _⟩
  exact ⟨_, guarded.law client⟩

/-- What is asked of an operation leaves three reasons to refuse it. -/
theorem Process.refused_of_fine {process : Process workers connections} {input : Input connections}
    {stop : Stop connections} (fine : process.Fine thread operation)
    (refused : process.perform packets thread input operation = .error stop) :
    (∃ lock other, operation = .enterLock lock ∧ process.owner lock = some other ∧
      stop = .taken lock) ∨
    (operation = .getQueuedCompletionStatus ∧ stop = .notInFlight) ∨
    (operation = .crash .sockOpt ∧ stop = .crash .sockOpt) := by
  cases operation with
  | enterLock lock =>
      simp only [Process.perform] at refused
      split at refused
      · cases refused
      · next other owner =>
          cases refused
          exact Or.inl ⟨lock, other, rfl, owner, rfl⟩
  | submit context =>
      simp only [Process.perform] at refused
      split at refused <;> cases refused
  | getQueuedCompletionStatus =>
      simp only [Process.perform] at refused
      split at refused
      · cases refused
      · cases refused
      · split at refused
        · cases refused
        · cases refused
          exact Or.inr (Or.inl ⟨rfl, rfl⟩)
  | recvCompletion client transferred =>
      rcases Option.isSome_iff_exists.mp fine with ⟨receive, received⟩
      simp only [Process.perform, received] at refused
      cases refused
  | writeRequest client id =>
      rcases Option.isSome_iff_exists.mp fine with ⟨written, wrote⟩
      simp only [Process.perform, wrote] at refused
      cases refused
  | popRequest =>
      simp only [Process.perform] at refused
      split at refused
      · next empty => exact absurd empty fine
      · cases refused
  | crash assertion =>
      rcases fine with ⟨rfl, _⟩
      cases refused
      exact Or.inr (Or.inr ⟨rfl, rfl⟩)
  | _ => cases refused

/-! ## Given runs -/

/-- The dummy clients before their first operation, on zeroed memory. -/
def Running.start (workers connections : ℕ) : Running workers connections :=
  ⟨.start workers (fun _ _ => 0) fun _ _ => 0, fun thread => .done (Mode.start thread)⟩

theorem exists_of_check {labels : List (Thread workers × Input connections)}
    {check : Running workers connections → Bool}
    (checked : (Machine.follow (program workers packets).step (Running.start workers connections)
      labels).toOption.any check = true) :
    ∃ config, (dummyClients workers packets).Reachable config ∧ check config = true := by
  have start : (dummyClients workers packets).Reachable (Running.start workers connections) :=
    .ofInitial ⟨⟨_, _, rfl⟩, fun _ => rfl⟩
  exact start.exists_of_check (fun _ _ _ step => step) checked

/-- Operations of a thread whose Winsock calls succeed or fail. -/
def calls (thread : Thread 2) (count : ℕ) (success : Bool) : List (Thread 2 × Input 1) :=
  List.replicate count (thread, ⟨success, .waitTimeout⟩)

/-- A worker takes a completed context of the only session. -/
def completes (worker : Fin 2) (mIoType : IOType) (window : WsaBuf) (dwTransferred : ℕ) :
    Thread 2 × Input 1 :=
  (some worker, ⟨true, .packet ⟨0, mIoType, window⟩ true dwTransferred⟩)

/-- The session is connected, and a worker goes on with the completion. -/
def connecting (count : ℕ) : List (Thread 2 × Input 1) :=
  calls none 9 true ++ calls (some 0) 1 true ++ [completes 0 .ioConnect ⟨0, none⟩ 0] ++
    calls (some 0) count true

/-- A socket option cannot be set. -/
def misconfigured : List (Thread 2 × Input 1) := connecting 1 ++ calls (some 0) 1 false

/-- A send is completed before it has been counted. -/
def overtaken : List (Thread 2 × Input 1) :=
  connecting 32 ++ calls (some 1) 1 true ++ [completes 1 .ioSend ⟨6, some 0⟩ 6]

/-- Between `IsConnected` and the lock of `FlushSend` the session is disconnected and
released; the send fails, which releases it again. -/
def releasedTwice : List (Thread 2 × Input 1) :=
  connecting 23 ++ calls none 9 true ++ calls (some 1) 1 true ++
    [completes 1 .ioRecvZero ⟨0, none⟩ 0] ++ calls (some 1) 8 true ++
    [completes 1 .ioDisconnect ⟨0, none⟩ 0] ++ calls (some 1) 3 true ++
    calls (some 0) 8 true ++ calls (some 0) 3 false

/-- The session is disconnected before its login, and released. -/
def disconnecting : List (Thread 2 × Input 1) :=
  connecting 9 ++ calls none 9 true ++ calls (some 0) 10 true ++
    [completes 0 .ioRecvZero ⟨0, none⟩ 0] ++ calls (some 0) 8 true ++
    [completes 0 .ioDisconnect ⟨0, none⟩ 0] ++ calls (some 0) 3 true

/-- A packet without a handler. -/
def unhandled : Packet := ⟨7, [1, 2], by decide, by decide, by decide⟩

/-- A worker receives the packet while the other one has not logged in. -/
def receivesPacket : List (Thread 2 × Input 1) :=
  connecting 9 ++ calls (some 1) 1 true ++ [completes 1 .ioRecvZero ⟨0, none⟩ 0] ++
    calls (some 1) 14 true ++ [completes 1 .ioRecv ⟨65536, some 0⟩ 6] ++ calls (some 1) 1 true

/-! ## Assertions and checks -/

/-- No step is refused but by a lock that is taken, for a context that is not in flight,
or by the assertion about a socket option: no other assertion fails, no check of the
serializer or the parser does, and `DoSendJob` never pops an empty list. -/
theorem refused_of_reachable (reachable : (dummyClients workers packets).Reachable config)
    {input : Input connections} {stop : Stop connections}
    (refused : (program workers packets).step config (thread, input) = .error stop) :
    (∃ lock other, config.state.owner lock = some other ∧ stop = .taken lock) ∨
      stop = .notInFlight ∨ stop = .crash .sockOpt := by
  rw [Program.step] at refused
  split at refused
  · cases refused
  · next op next about =>
      split at refused
      · next why performed =>
          cases refused
          have fine := (sound_of_reachable reachable).fine about
          rcases Process.refused_of_fine fine performed with
            ⟨lock, other, _, owner, rfl⟩ | ⟨_, rfl⟩ | ⟨_, rfl⟩
          · exact Or.inl ⟨lock, other, owner, rfl⟩
          · exact Or.inr (Or.inl rfl)
          · exact Or.inr (Or.inr rfl)
      · cases refused

/-- A worker has failed the assertion. -/
theorem refused_of_reachable_misconfigured : ∃ config : Running 2 1,
    (dummyClients 2 fun _ => []).Reachable config ∧ ∃ input stop,
      (program 2 fun _ => []).step config (some 0, input) = .error stop ∧
      ((∃ lock other, config.state.owner lock = some other ∧ stop = .taken lock) ∨
        stop = .notInFlight ∨ stop = .crash .sockOpt) := by
  have checked : (Machine.follow (program 2 fun _ => []).step (Running.start 2 1)
      misconfigured).toOption.any
        (fun config => (config.code (some 0)).nextOp = some (.crash .sockOpt)) = true := by
    decide +kernel
  rcases exists_of_check checked with ⟨config, reachable, about⟩
  have failed : (config.code (some 0)).nextOp = some (.crash .sockOpt) := of_decide_eq_true about
  have refused : (program 2 fun _ => []).step config (some 0, ⟨true, .waitTimeout⟩) =
      .error (.crash .sockOpt) := by
    cases code : config.code (some 0) with
    | done mode =>
        rw [code] at failed
        cases failed
    | call op next =>
        rw [code] at failed
        cases failed
        rw [Program.step, code]
        rfl
  exact ⟨config, reachable, _, _, refused, refused_of_reachable reachable refused⟩

/-! ## Waiting for locks -/

/-- The thread is about to take the lock. -/
def Wants (config : Running workers connections) (thread : Thread workers)
    (lock : Lock connections) : Prop :=
  (config.code thread).nextOp = some (.enterLock lock)

/-- The thread owns the lock. -/
def Holds (config : Running workers connections) (thread : Thread workers)
    (lock : Lock connections) : Prop :=
  config.state.owner lock = some thread

/-- With some outcome of its calls the thread goes on. -/
def Runs (packets : ClientId connections → List Packet) (config : Running workers connections)
    (thread : Thread workers) : Prop :=
  ∃ input after, (program workers packets).step config (thread, input) = .ok after

/-- In every reachable state locks are taken in order. -/
theorem ranked_of_reachable (reachable : (dummyClients workers packets).Reachable config) :
    Ranked (Wants config) (Holds config) Lock.rank := by
  intro thread lock held wanted holding
  exact fine_of_reachable reachable wanted held holding

/-- Who does not wait goes on or has failed the assertion. -/
theorem runs_of_not_waitsFor (reachable : (dummyClients workers packets).Reachable config)
    (running : ∀ other, ¬WaitsFor (Wants config) (Holds config) thread other) :
    Runs packets config thread ∨
      (config.code thread).nextOp = some (.crash .sockOpt) := by
  cases stepped : (program workers packets).step config (thread, ⟨true, .waitTimeout⟩) with
  | ok after => exact Or.inl ⟨_, after, stepped⟩
  | error stop =>
      simp only [Program.step] at stepped
      split at stepped
      · cases stepped
      · next op next about =>
          split at stepped
          · next why performed =>
              have fine := (sound_of_reachable reachable).fine about
              have refused : config.state.perform packets thread ⟨true, .waitTimeout⟩ op =
                  .error why := performed
              rcases Process.refused_of_fine fine refused with
                ⟨lock, other, rfl, owner, _⟩ | ⟨rfl, _⟩ | ⟨rfl, _⟩
              · exact absurd ⟨lock, congrArg Code.nextOp about, owner⟩ (running other)
              · cases performed
              · exact Or.inr (congrArg Code.nextOp about)
          · cases stepped

/-- A thread goes on, has failed the assertion about a socket option, or waits in the end
for one that goes on: there is no deadlock, and no lock is lost. -/
theorem runs_of_reachable (reachable : (dummyClients workers packets).Reachable config)
    (thread : Thread workers) :
    Runs packets config thread ∨
      (config.code thread).nextOp = some (.crash .sockOpt) ∨
      ∃ other, Relation.TransGen (WaitsFor (Wants config) (Holds config)) thread other ∧
        Runs packets config other := by
  rcases (ranked_of_reachable reachable).exists_running thread with ⟨other, chain, running⟩
  rcases Relation.reflTransGen_iff_eq_or_transGen.mp chain with rfl | waits
  · exact (runs_of_not_waitsFor reachable running).imp_right Or.inl
  · refine Or.inr (Or.inr ⟨other, waits, ?_⟩)
    rcases Relation.TransGen.tail'_iff.mp waits with ⟨_, _, lock, _, holding⟩
    rcases runs_of_not_waitsFor reachable running with runs | failed
    · exact runs
    · -- the assertion is made without a lock
      exact absurd holding ((fine_of_reachable reachable failed).2 lock)

/-- `SendCompletion` waits for the `FlushSend` that has posted the send. -/
theorem runs_of_reachable_overtaken : ∃ config : Running 2 1,
    (dummyClients 2 fun _ => []).Reachable config ∧
    Wants config (some 1) (.mSendBufferLock 0) ∧ Holds config (some 0) (.mSendBufferLock 0) ∧
    (Runs (fun _ => []) config (some 1) ∨
      (config.code (some 1)).nextOp = some (.crash .sockOpt) ∨
      ∃ other, Relation.TransGen (WaitsFor (Wants config) (Holds config)) (some 1) other ∧
        Runs (fun _ => []) config other) := by
  have checked : (Machine.follow (program 2 fun _ => []).step (Running.start 2 1)
      overtaken).toOption.any (fun config =>
        (config.code (some 1)).nextOp = some (.enterLock (.mSendBufferLock 0)) ∧
          config.state.owner (.mSendBufferLock 0) = some (some 0)) = true := by
    decide +kernel
  rcases exists_of_check checked with ⟨config, reachable, about⟩
  rcases of_decide_eq_true about with ⟨wanted, holding⟩
  exact ⟨config, reachable, wanted, holding, runs_of_reachable reachable (some 1)⟩

/-! ## References -/

/-- Contexts in flight of some types have brought at most what there is of a token. -/
theorem Session.countP_le_carried (session : Session connections) (token : Token)
    (kinds : IOType → Bool) (brings : ∀ mIoType, kinds mIoType → 0 < amount mIoType.brings token) :
    session.inFlight.countP (fun context => kinds context.mIoType) ≤ session.carried token := by
  rw [Session.carried]
  induction session.inFlight with
  | nil => exact Nat.zero_le _
  | cons context rest ih =>
      rw [List.countP_cons, List.map_cons, List.sum_cons, Pi.add_apply, Nat.add_comm]
      apply Nat.add_le_add _ ih
      split
      · next kind => exact brings _ kind
      · exact Nat.zero_le _

/-- What refers to a session, and how often it is given up. -/
structure Referenced (session : Session connections) : Prop where
  counted : (session.inFlight.length : ℤ) + session.mConnected.toNat ≤ session.mRefCount
  released : session.released ≤ 2

/-- The last reference is released when there is neither a context in flight nor a
connection. A worker that adds a reference to a session without one is in `FlushSend`. -/
structure KeepsReferences (config : Running workers connections) : Prop where
  session : ∀ client, Referenced (config.state.session client)
  last : ∀ thread client, (config.code thread).nextOp = some (.decrementRefCount client) →
    0 < (config.state.session client).mRefCount ∧
      ((config.state.session client).mRefCount = 1 →
        (config.state.session client).inFlight = [] ∧
          (config.state.session client).mConnected = false)
  flushing : ∀ worker client,
    (config.code (some worker)).nextOp = some (.incrementRefCount client) →
    (config.state.session client).mRefCount ≤ 0 →
    config.state.owner (.mSendBufferLock client) = some (some worker)

theorem referenced_of_reachable (reachable : (dummyClients workers packets).Reachable config) :
    KeepsReferences config := by
  constructor
  · intro client
    rcases law_of_reachable reachable client with ⟨others, law⟩
    have counted := law.counted
    have releases := law.releases
    have known : ∀ context ∈ (config.state.session client).inFlight,
        context.mIoType ≠ .ioNone := fun context contextMem => (law.ready context contextMem).known
    have all : (config.state.session client).inFlight.countP
        (fun context => context.mIoType ≠ .ioNone) =
          (config.state.session client).inFlight.length :=
      List.countP_eq_length.mpr fun context contextMem =>
        decide_eq_true (known context contextMem)
    have brought := Session.countP_le_carried (config.state.session client) .ref
      (fun mIoType => mIoType ≠ .ioNone) fun mIoType named => by
        cases mIoType <;> simp_all [IOType.brings, amount]
    rw [all] at brought
    simp only [Pi.add_apply] at counted releases
    constructor <;> omega
  · intro thread client about
    exact fine_of_reachable reachable about
  · intro worker client about unreferenced
    rcases fine_of_reachable reachable about with main | referenced | locked
    · cases main
    · omega
    · exact locked

/-- The bound is met: `OnRelease` is called twice for one session. -/
theorem referenced_of_reachable_releasedTwice : ∃ config : Running 2 1,
    (dummyClients 2 fun _ => []).Reachable config ∧ (config.state.session 0).released = 2 ∧
    config.state.mCurrentConnectCount < config.state.mCurrentReturnCount ∧
    KeepsReferences config := by
  have checked : (Machine.follow (program 2 fun _ => []).step (Running.start 2 1)
      releasedTwice).toOption.any (fun config => (config.state.session 0).released = 2 ∧
        config.state.mCurrentConnectCount < config.state.mCurrentReturnCount) = true := by
    decide +kernel
  rcases exists_of_check checked with ⟨config, reachable, about⟩
  rcases of_decide_eq_true about with ⟨released, more⟩
  exact ⟨config, reachable, released, more, referenced_of_reachable reachable⟩

/-- A worker that makes this step adds a reference only to a session that has one. -/
def Spares (config : Running workers connections) (label : Thread workers × Input connections) :
    Prop :=
  label.1 ≠ none → ∀ client, (config.code label.1).nextOp = some (.incrementRefCount client) →
    0 < (config.state.session client).mRefCount

instance (config : Running workers connections) (label : Thread workers × Input connections) :
    Decidable (Spares config label) :=
  inferInstanceAs (Decidable (_ → ∀ _, _ → _))

/-- A step that spares the sessions. -/
def sparingStep (packets : ClientId connections → List Packet)
    (config : Running workers connections) (label : Thread workers × Input connections) :
    Except (Stop connections) (Running workers connections) :=
  if Spares config label then (program workers packets).step config label else .error .check

theorem step_of_sparingStep {label : Thread workers × Input connections}
    {after : Running workers connections} (made : sparingStep packets config label = .ok after) :
    (dummyClients workers packets).Step config label after ∧ Spares config label := by
  rw [sparingStep] at made
  split at made
  · next spares => exact ⟨made, spares⟩
  · cases made

/-- If `FlushSend` always finds a reference when it adds its own, `OnRelease` is called at most
once for a session. -/
theorem releasedOnce_of_spares {first last : Running workers connections}
    {steps : List (Running workers connections × (Thread workers × Input connections))}
    (run : (dummyClients workers packets).Run first steps last)
    (initial : (dummyClients workers packets).Initial first)
    (spares : ∀ step ∈ steps, Spares step.1 step.2) :
    ∀ config ∈ Machine.visited steps last, ∀ client,
      (config.state.session client).released ≤ 1 := by
  have sound : ∀ config ∈ Machine.visited steps last,
      (program workers packets).Sound (discipline workers True packets)
        (fun thread mode ghost => mode.Ends thread ghost) config := by
    refine run.good_of_fine initial ?_ ?_ spares
    · rcases initial with ⟨start, modes⟩
      rcases exists_ghosts_start True start with ⟨ghosts, inv, ends⟩
      refine ⟨ghosts, inv, ?_⟩
      intro thread
      rw [modes thread]
      exact ends thread
    · intro before label after _ sound step spared
      refine sound.step (fun thread mode _ ends => secure_body mode ends) ?_ step
      intro operation about _
      cases operation with
      | incrementRefCount client => exact fun worker => spared worker client about
      | _ => trivial
  intro config visited client
  rcases sound config visited with ⟨ghosts, guarded, _⟩
  have once := (guarded.law client).once trivial
  omega

theorem releasedOnce_of_spares_disconnecting : ∃ steps last,
    (dummyClients 2 fun _ => []).Run (Running.start 2 1) steps last ∧
    steps.map Prod.snd = disconnecting ∧ (last.state.session 0).released = 1 ∧
    ∀ config ∈ Machine.visited steps last, ∀ client,
      (config.state.session client).released ≤ 1 := by
  have checked : (Machine.follow (sparingStep fun _ => []) (Running.start 2 1)
      disconnecting).toOption.any (fun config => (config.state.session 0).released = 1) =
      true := by
    decide +kernel
  rcases Machine.exists_run_of_check (fun _ _ _ => step_of_sparingStep) checked with
    ⟨steps, last, run, labels, spares, released⟩
  refine ⟨steps, last, run, labels, of_decide_eq_true released, ?_⟩
  exact releasedOnce_of_spares run ⟨⟨_, _, rfl⟩, fun _ => rfl⟩ spares

/-! ## Receiving -/

/-- Of the packets a peer sends, those that are done have been handled. -/
def Handles (packets : List Packet) (receive : Client) : Prop :=
  ∃ done rest, packets = done ++ rest ∧
    receive.printed = done.filterMap (fun packet => meaning packet.view) ∧
    (encodeAll done).length ≤ receive.session.mRecvTotal ∧
    receive.session.mRecvTotal ≤ (encodeAll packets).length

/-- A stream that is followed is handled in order. -/
theorem Follows.handles {stream : List Packet} {receive : Client}
    (follows : Follows stream receive) : Handles stream receive := by
  rcases follows with ⟨client, reachable, total_eq, printed_eq⟩
  rcases exists_replay reachable with ⟨session, done, rest, progress, rfl⟩
  refine ⟨done, rest, progress.split, ?_, ?_, ?_⟩
  · rw [printed_eq]
    exact (printed_replay progress).1
  · rw [total_eq]
    exact progress.total ▸ Nat.le_add_right _ _
  · have inside := progress.front.length_le
    rw [total_eq, progress.split, encodeAll_append, List.length_append]
    change session.mRecvTotal ≤ _
    rw [progress.total]
    exact Nat.add_le_add_left inside _

/-- At most one receive of each session is in flight, into the window that `PostRecv`
gives, and the sessions print what their peers have sent. -/
theorem handles_of_reachable (reachable : (dummyClients workers packets).Reachable config)
    (client : ClientId connections) :
    Handles (packets client) (config.state.session client).receive ∧
      (config.state.session client).inFlight.countP (·.mIoType.receives) ≤ 1 ∧
      ∀ context ∈ (config.state.session client).inFlight, context.mSessionObject = client ∧
        (context.mIoType = .ioRecv →
          Posted (packets client) (config.state.session client).receive context.mWsaBuf) := by
  rcases law_of_reachable reachable client with ⟨others, law⟩
  refine ⟨law.follows.handles, ?_, ?_⟩
  · have receiving := law.receiving
    have brought := Session.countP_le_carried (config.state.session client) .baton
      IOType.receives fun mIoType receives => by
        cases mIoType <;> simp_all [IOType.brings, IOType.receives, amount]
    simp only [Pi.add_apply] at receiving
    omega
  · intro context contextMem
    have ready := law.ready context contextMem
    exact ⟨ready.owner, ready.posted⟩

theorem handles_of_reachable_receivesPacket : ∃ config : Running 2 1,
    (dummyClients 2 fun _ => [unhandled]).Reachable config ∧
    (config.state.session 0).receive.session.mRecvTotal = 6 ∧
    (config.state.session 0).receive.printed.length = 1 ∧
    Handles [unhandled] (config.state.session 0).receive := by
  have checked : (Machine.follow (program 2 fun _ => [unhandled]).step (Running.start 2 1)
      receivesPacket).toOption.any (fun config =>
        (config.state.session 0).receive.session.mRecvTotal = 6 ∧
          (config.state.session 0).receive.printed.length = 1) = true := by
    decide +kernel
  rcases exists_of_check checked with ⟨config, reachable, about⟩
  rcases of_decide_eq_true about with ⟨total, printed⟩
  exact ⟨config, reachable, total, printed, (handles_of_reachable reachable 0).1⟩

/-! ## Sending -/

/-- One send at a time, and a thread that is about to send does so for the first time. -/
structure SendsOnce (config : Running workers connections) : Prop where
  pending : ∀ client, 0 ≤ (config.state.session client).mSendPendingCount ∧
    (config.state.session client).mSendPendingCount ≤ 1
  single : ∀ client, (config.state.session client).inFlight.countP (·.mIoType = .ioSend) ≤ 1
  unsent : ∀ thread client, (config.code thread).nextOp = some (.loadSendPendingCount client) →
    (config.state.session client).mSendPendingCount = 0
  window : ∀ thread context, (config.code thread).nextOp = some (.submit context) →
    context.mIoType = .ioSend →
    Sends (config.state.session context.mSessionObject).mSendBuffer context.mWsaBuf

/-- What `FlushSend` hands to Winsock is the bytes of a login, and it never finds a send
pending. -/
theorem sendsOnce_of_reachable (reachable : (dummyClients workers packets).Reachable config) :
    SendsOnce config := by
  constructor
  · intro client
    rcases law_of_reachable reachable client with ⟨others, law⟩
    have requesting := law.requesting
    refine ⟨law.nonneg, ?_⟩
    omega
  · intro client
    rcases law_of_reachable reachable client with ⟨others, law⟩
    have requesting := law.requesting
    have pending := law.pending
    have brought := Session.countP_le_carried (config.state.session client) .sent
      (fun mIoType => mIoType = .ioSend) fun mIoType sends => by
        cases mIoType <;> simp_all [IOType.brings, amount]
    simp only [Pi.add_apply] at requesting pending
    omega
  · intro thread client about
    exact fine_of_reachable reachable about
  · intro thread context about
    exact fine_of_reachable reachable about

/-- The login is about to be sent. -/
theorem sendsOnce_of_reachable_connecting : ∃ config : Running 2 1,
    (dummyClients 2 fun _ => []).Reachable config ∧
    (config.code (some 0)).nextOp = some (.submit ⟨0, .ioSend, ⟨6, some 0⟩⟩) ∧
    SendsOnce config := by
  have checked : (Machine.follow (program 2 fun _ => []).step (Running.start 2 1)
      (connecting 31)).toOption.any (fun config =>
        (config.code (some 0)).nextOp = some (.submit ⟨0, .ioSend, ⟨6, some 0⟩⟩)) = true := by
    decide +kernel
  rcases exists_of_check checked with ⟨config, reachable, about⟩
  exact ⟨config, reachable, of_decide_eq_true about, sendsOnce_of_reachable reachable⟩

end Runs

end Gsp.DummyClients
