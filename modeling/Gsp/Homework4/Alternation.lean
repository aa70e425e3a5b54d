import Gsp.Homework4.Completions

/-!
# One context in flight, and no lock on return

What the rules give for every run. A session has at most one context in flight, so
its buffer serves one direction at a time: it is empty when a receive is posted and
holds the last receive when a send is posted. And a session is returned only by a
thread without a lock, since the deletions made under a lock never release the last
reference.
-/

namespace Gsp.Homework4

variable {workers : ℕ}

/-! ## The start -/

theorem lt_of_mem_prepareSessions {count : ℕ} {le : count ≤ maxConnection} {client : ClientId}
    (clientMem : client ∈ prepareSessions count le) : client.val < count := by
  induction count with
  | zero => cases clientMem
  | succ count ih =>
      rcases List.mem_cons.mp clientMem with rfl | clientMem
      · exact Nat.lt_succ_self count
      · exact Nat.lt_succ_of_lt (ih clientMem)

theorem nodup_prepareSessions {count : ℕ} (le : count ≤ maxConnection) :
    (prepareSessions count le).Nodup := by
  induction count with
  | zero => exact List.nodup_nil
  | succ count ih =>
      apply List.nodup_cons.mpr
      refine ⟨?_, ih (Nat.le_of_succ_le le)⟩
      intro listed
      exact absurd (lt_of_mem_prepareSessions listed) (Nat.lt_irrefl count)

/-- A new buffer is sound. -/
theorem Stream.Sound.construct (raw : ℕ → UInt8) :
    Stream.Sound ⟨.construct raw bufSize, [], []⟩ :=
  ⟨.construct raw (by decide), rfl, rfl, List.prefix_refl _⟩

/-- A thread that holds nothing. -/
def Ghost.idle : Ghost := ⟨[], ⟨0, by decide⟩, 0, none⟩

/-- At the start every thread owns nothing. -/
theorem Guarded.start (raw : ClientId → ℕ → UInt8) :
    Guarded (.start workers raw) fun _ => Ghost.idle := by
  have nothing (held : Ghost → ℕ) (none : held Ghost.idle = 0) (client : ClientId) :
      (Ghost.idle.share held client) = 0 := by
    rw [Ghost.share, none]
    exact ite_self 0
  constructor
  · intro lock thread owner
    cases owner
  · intro client
    have once := List.nodup_iff_count_le_one.mp (nodup_prepareSessions (Nat.le_refl _)) client
    simp only [nothing Ghost.refs rfl, nothing Ghost.batons rfl, nothing Ghost.returnings rfl,
      Finset.sum_const_zero]
    constructor
    · exact Int.le_refl 0
    · simpa [Server.start, ClientSession.construct] using once
    · intro _
      rfl
  · intro thread key holds
    cases holds
  · intro client context contextMem
    cases contextMem
  · intro client _
    rfl
  · intro client
    exact .construct (raw client)

/-- The server with the code its threads have to run. -/
abbrev Running (workers : ℕ) : Type :=
  Config (Thread workers) Mode (Server workers) Operation.Result

variable {config : Running workers}

/-- The program is sound in every reachable state. -/
theorem sound_of_reachable (reachable : (echoServer workers).Reachable config) :
    (program workers).Sound (discipline workers) Mode.Ends config := by
  refine Program.sound_of_reachable ?_ ?_ ?_ reachable
  · intro _ _ _
    trivial
  · intro thread mode ghost ends
    exact secure_body mode ends
  · rintro _ ⟨raw, rfl⟩
    refine ⟨_, Guarded.start raw, ?_⟩
    intro thread
    cases thread <;> exact rfl

/-- What an operation asks of the server holds when a thread is about to perform it. -/
theorem fine_of_reachable (reachable : (echoServer workers).Reachable config)
    {thread : Thread workers} {operation : Operation}
    (about : (config.code thread).nextOp = some operation) :
    config.state.Fine thread operation := by
  cases code : config.code thread with
  | done mode =>
      rw [code] at about
      cases about
  | call op next =>
      rw [code] at about
      cases about
      exact (sound_of_reachable reachable).fine code

/-- In every reachable state the tokens are accounted for. -/
theorem guarded_of_reachable (reachable : (echoServer workers).Reachable config) :
    ∃ ghosts, Guarded config.state ghosts := by
  rcases sound_of_reachable reachable with ⟨ghosts, guarded, _⟩
  exact ⟨ghosts, guarded⟩

/-! ## Given runs -/

/-- The server before its first operation, on zeroed memory. -/
def Running.start (workers : ℕ) : Running workers :=
  ⟨.start workers fun _ _ => 0, fun thread => .done (Mode.start thread)⟩

theorem exists_of_check {labels : List (Thread workers × Input)} {check : Running workers → Bool}
    (checked : (Machine.follow (program workers).step (Running.start workers) labels).toOption.any
      check = true) : ∃ config, (echoServer workers).Reachable config ∧ check config = true := by
  have start : (echoServer workers).Reachable (Running.start workers) :=
    .ofInitial ⟨⟨_, rfl⟩, fun _ => rfl⟩
  exact start.exists_of_check (fun _ _ _ step => step) checked

/-- The back of the free list at the start. -/
def firstClient : ClientId := ⟨9999, by decide⟩

/-- A completion of the first session; no data, no bytes transferred. -/
def completes (mIoType : IOType) (window : WsaBuf) (data : List UInt8) : Input :=
  ⟨true, ⟨⟨firstClient, mIoType, window⟩, true, data.length, false⟩, data⟩

/-- A connection is accepted and receives one byte. -/
def oneByte : List (Thread 1 × Input) :=
  List.replicate 11 (none, completes .ioAccept ⟨0, none⟩ []) ++
    List.replicate 16 (some 0, completes .ioAccept ⟨0, none⟩ []) ++
    List.replicate 17 (some 0, completes .ioRecvZero ⟨0, none⟩ []) ++
    List.replicate 4 (some 0, completes .ioRecv ⟨bufSize, some 0⟩ [7])

/-- A connection is accepted, and its receive is refused. -/
def recvRefused : List (Thread 1 × Input) :=
  List.replicate 11 (none, completes .ioAccept ⟨0, none⟩ []) ++
    List.replicate 16 (some 0, completes .ioAccept ⟨0, none⟩ []) ++
    List.replicate 11 (some 0, completes .ioRecvZero ⟨0, none⟩ []) ++
    [(some 0, { completes .ioRecvZero ⟨0, none⟩ [] with success := false })]

/-- Then the connection is disconnected. -/
def disconnected : List (Thread 1 × Input) :=
  recvRefused ++ List.replicate 12 (some 0, completes .ioRecvZero ⟨0, none⟩ []) ++
    List.replicate 4 (some 0, completes .ioDisconnect ⟨0, none⟩ [])

/-! ## The alternation -/

/-- One context in flight for each session, and what is in its buffer meanwhile. -/
structure Alternates (config : Running workers) : Prop where
  inFlight : ∀ client, (config.state.session client).inFlight.length ≤ 1
  postRecv : ∀ thread client, (config.code thread).nextOp = some (.enters .postRecv client) →
    (config.state.session client).mBuffer.contents = []
  recvWindow : ∀ thread client window,
    (config.code thread).nextOp = some (.submit ⟨client, .ioRecv, window⟩) →
    window = ⟨bufSize, some 0⟩ ∧ (config.state.session client).mBuffer.contents = []
  withoutB : ∀ client, (config.state.session client).mBuffer.mBRegionPointer = none
  postSend : ∀ thread client, (config.code thread).nextOp = some (.enters .postSend client) →
    (config.state.session client).received.getLast? =
      some (config.state.session client).mBuffer.contents
  sendWindow : ∀ thread client window,
    (config.code thread).nextOp = some (.submit ⟨client, .ioSend, window⟩) →
    window = ⟨(config.state.session client).mBuffer.contents.length, some 0⟩ ∧
      (config.state.session client).received.getLast? =
        some (config.state.session client).mBuffer.contents
  removed : ∀ client,
    (config.state.session client).removed <+: (config.state.session client).received.flatten

theorem alternates_of_reachable (reachable : (echoServer workers).Reachable config) :
    Alternates config := by
  rcases guarded_of_reachable reachable with ⟨ghosts, guarded⟩
  constructor
  · intro client
    have single := (guarded.law client).single
    omega
  · intro thread client about
    exact fine_of_reachable reachable about
  · intro thread client window about
    exact fine_of_reachable reachable about
  · intro client
    exact (guarded.sound client).closed
  · intro thread client about
    exact fine_of_reachable reachable about
  · intro thread client window about
    exact fine_of_reachable reachable about
  · intro client
    exact (guarded.sound client).prefixed

/-- The first receive is about to be echoed. -/
theorem alternates_oneByte : ∃ config, (echoServer 1).Reachable config ∧
    (config.code (some 0)).nextOp = some (.enters .postSend firstClient) ∧
    Alternates config := by
  have checked : (Machine.follow (program 1).step (Running.start 1) oneByte).toOption.any
      (fun config => (config.code (some 0)).nextOp = some (.enters .postSend firstClient)) =
      true := by
    decide +kernel
  rcases exists_of_check checked with ⟨config, reachable, about⟩
  exact ⟨config, reachable, of_decide_eq_true about, alternates_of_reachable reachable⟩

/-! ## Returning a session -/

/-- A thread that returns a session holds no lock, and a reference released under a
lock is not the last. -/
theorem returnClientSession_unlocked (reachable : (echoServer workers).Reachable config) :
    (∀ thread client,
      (config.code thread).nextOp = some (.enters .returnClientSession client) →
      ∀ lock, config.state.owner lock ≠ some thread) ∧
    ∀ thread client lock, (config.code thread).nextOp = some (.decrementRefCount client) →
      config.state.owner lock = some thread →
      (config.state.session client).mRefCount - 1 ≠ 0 := by
  constructor
  · intro thread client about
    exact fine_of_reachable reachable about
  · intro thread client lock about owner last
    have more := fine_of_reachable reachable about ⟨lock, owner⟩
    omega

/-- The refused receive gives up a reference under the lock of the session, and the
completed disconnect returns the session. -/
theorem returnClientSession_unlocked_disconnected :
    (∃ config, (echoServer 1).Reachable config ∧
      (config.code (some 0)).nextOp = some (.decrementRefCount firstClient) ∧
      config.state.owner (.mBufferLock firstClient) = some (some 0) ∧
      (config.state.session firstClient).mRefCount - 1 ≠ 0) ∧
    ∃ config, (echoServer 1).Reachable config ∧
      (config.code (some 0)).nextOp = some (.enters .returnClientSession firstClient) ∧
      ∀ lock, config.state.owner lock ≠ some (some 0) := by
  constructor
  · have checked : (Machine.follow (program 1).step (Running.start 1) recvRefused).toOption.any
        (fun config => (config.code (some 0)).nextOp = some (.decrementRefCount firstClient) ∧
          config.state.owner (.mBufferLock firstClient) = some (some 0)) = true := by
      decide +kernel
    rcases exists_of_check checked with ⟨config, reachable, isThere⟩
    rcases of_decide_eq_true isThere with ⟨about, owner⟩
    have notLast := (returnClientSession_unlocked reachable).2 _ _ _ about owner
    exact ⟨config, reachable, about, owner, notLast⟩
  · have checked : (Machine.follow (program 1).step (Running.start 1) disconnected).toOption.any
        (fun config => (config.code (some 0)).nextOp =
          some (.enters .returnClientSession firstClient)) = true := by
      decide +kernel
    rcases exists_of_check checked with ⟨config, reachable, about⟩
    have returns := of_decide_eq_true about
    exact ⟨config, reachable, returns, (returnClientSession_unlocked reachable).1 _ _ returns⟩

end Gsp.Homework4
