import Gsp.DummyClients.Operations

/-!
# What contexts in flight carry

A context takes the tokens of its kind along and brings them back when it completes.
The baton goes from one receive to the next, and a request that is sent comes back as
one to be counted.
-/

namespace Gsp.DummyClients

open DummyClient MyPacket Tokens

/-! ## Tokens of a context -/

namespace IOType

/-- What is held for a context that is handed to Winsock. -/
def needs : IOType → Multiset Token
  | .ioSend => {.sending, .ref}
  | mIoType => mIoType.brings

/-- What is left with the thread. -/
def leaves : IOType → Multiset Token
  | .ioSend => {.uncounted}
  | _ => 0

/-- Whether a context comes with the receive buffer. -/
def receives : IOType → Bool
  | .ioRecv | .ioRecvZero => true
  | _ => false

end IOType

section Laws

variable {connections : ℕ} {spares : Prop} {packets : List Packet}
  {client : ClientId connections}
  {session : Session connections} {others tokens : Amount}
  {context : OverlappedIOContext connections}

theorem Session.carried_append :
    Session.carried { session with inFlight := session.inFlight ++ [context] } =
      session.carried + amount context.mIoType.brings := by
  simp [Session.carried]

/-- The numbers are about the counts of the session only. -/
theorem Numbers.congr (numbers : Numbers spares session tokens) {after : Session connections}
    (same_refs : after.mRefCount = session.mRefCount)
    (same_connected : after.mConnected = session.mConnected)
    (same_pending : after.mSendPendingCount = session.mSendPendingCount)
    (same_released : after.released = session.released) : Numbers spares after tokens := by
  constructor
  · rw [same_refs, same_connected]
    exact numbers.counted
  · rw [same_connected]
    exact numbers.connecting
  · exact numbers.receiving
  · rw [same_pending]
    exact numbers.requesting
  · rw [same_pending]
    exact numbers.pending
  · rw [same_pending]
    exact numbers.nonneg
  · rw [same_refs]
    exact numbers.unused
  · rw [same_released, same_refs]
    exact numbers.releases
  · rw [same_refs, same_released]
    exact numbers.once

/-- The context takes its tokens along. -/
theorem Law.submit
    (law : Law spares packets client session
      (others + amount context.mIoType.needs + session.carried))
    (ready : context.Ready client packets session.receive) :
    Law spares packets client { session with inFlight := session.inFlight ++ [context] }
      (others + amount context.mIoType.leaves +
        Session.carried { session with inFlight := session.inFlight ++ [context] }) := by
  have contexts : ∀ other ∈ session.inFlight ++ [context],
      other.Ready client packets session.receive := by
    intro other otherMem
    rcases List.mem_append.mp otherMem with old | new
    · exact law.ready other old
    · rw [List.mem_singleton.mp new]
      exact ready
  rw [Session.carried_append]
  by_cases kind : context.mIoType = .ioSend
  · rw [kind] at law ⊢
    rcases law.toNumbers with ⟨counted, connecting, receiving, requesting, pending, nonneg,
      unused, releases, once⟩
    refine law.recount ?_ rfl rfl ?_ ?_ ?_ contexts
    · constructor <;> simp_all [IOType.needs, IOType.leaves, IOType.brings] <;> omega
    · simp [IOType.needs, IOType.leaves, IOType.brings]
    · simp [IOType.needs, IOType.leaves, IOType.brings]
    · simp [IOType.needs, IOType.leaves, IOType.brings]
  · have tokens_eq : others + amount context.mIoType.leaves +
        (session.carried + amount context.mIoType.brings) =
        others + amount context.mIoType.needs + session.carried := by
      have none : context.mIoType.leaves = 0 := by
        cases sort : context.mIoType <;> simp_all [IOType.leaves]
      have same : context.mIoType.needs = context.mIoType.brings := by
        cases sort : context.mIoType <;> simp_all [IOType.needs]
      funext token
      rw [none, same]
      simp only [Pi.add_apply, amount_zero]
      omega
    rw [tokens_eq]
    exact law.recount (law.toNumbers.congr rfl rfl rfl rfl) rfl rfl le_rfl le_rfl le_rfl contexts

/-- A context that is not taken is dropped with what it needs but the reference. -/
theorem Law.refuse {mIoType : IOType}
    (law : Law spares packets client session (others + amount mIoType.needs))
    (known : mIoType ≠ .ioNone) :
    Law spares packets client session (others + amount {.ref}) := by
  rcases law.toNumbers with ⟨counted, connecting, receiving, requesting, pending, nonneg, unused,
    releases, once⟩
  refine law.recount ?_ rfl rfl ?_ ?_ ?_ law.ready
  · cases mIoType <;> constructor <;> simp_all [IOType.needs, IOType.brings] <;> omega
  · cases mIoType <;> simp [IOType.needs, IOType.brings]
  · cases mIoType <;> simp [IOType.needs, IOType.brings]
  · cases mIoType <;> simp [IOType.needs, IOType.brings]

/-- A completed context brings its tokens back. -/
theorem Law.dequeue {rest : List (OverlappedIOContext connections)}
    (law : Law spares packets client session (others + amount 0 + session.carried))
    (split : session.inFlight.Perm (context :: rest)) :
    Law spares packets client { session with inFlight := rest }
      (others + amount context.mIoType.brings +
        Session.carried { session with inFlight := rest }) := by
  have tokens_eq : others + amount context.mIoType.brings +
      Session.carried { session with inFlight := rest } =
      others + amount 0 + session.carried := by
    funext token
    rw [Session.carried_of_perm split]
    simp only [Pi.add_apply, amount_zero]
    omega
  rw [tokens_eq]
  refine law.recount (law.toNumbers.congr rfl rfl rfl rfl) rfl rfl le_rfl le_rfl le_rfl ?_
  intro other otherMem
  exact law.ready other (split.mem_iff.mpr (List.mem_cons_of_mem _ otherMem))

/-- A receive in flight has the baton. -/
theorem Session.carried_baton (inFlight : context ∈ session.inFlight)
    (receives : context.mIoType.receives = true) : 0 < session.carried .baton := by
  rcases List.perm_cons_erase inFlight with split
  rw [Session.carried_of_perm split]
  cases kind : context.mIoType <;> simp_all [IOType.receives, IOType.brings]

/-- Whoever has the baton may receive. -/
theorem Law.receive (law : Law spares packets client session (tokens + session.carried))
    (baton : 0 < tokens .baton) {receive : Client} (follows : Follows packets receive) :
    Law spares packets client { session with receive := receive } (tokens + session.carried) := by
  have receiving := law.receiving
  simp only [Pi.add_apply] at receiving
  refine ⟨law.toNumbers.congr rfl rfl rfl rfl, law.blank, law.loaded, ?_, ?_, follows⟩
  · intro positive
    simp only [Pi.add_apply] at positive
    omega
  · intro context contextMem
    have ready := law.ready context contextMem
    have alone (kind : context.mIoType.receives = true) : False := by
      have other : 0 < session.carried .baton := Session.carried_baton contextMem kind
      omega
    refine ⟨ready.owner, ready.known, ?_, ?_⟩
    · intro kind
      exact (alone (by rw [kind]; rfl)).elim
    · intro kind
      exact (alone (by rw [kind]; rfl)).elim

/-- A completed send may be taken out of the buffer. -/
theorem Law.remove (law : Law spares packets client session tokens) (sent : 0 < tokens .sent)
    (buffer : CircularBuffer) :
    Law spares packets client { session with mSendBuffer := buffer } tokens := by
  have requesting := law.requesting
  have pending := law.pending
  refine ⟨law.toNumbers.congr rfl rfl rfl rfl, ?_, ?_, law.quiet, law.ready, law.follows⟩
  · intro positive
    omega
  · intro positive
    omega

/-- A login is written once. -/
theorem Law.write (law : Law spares packets client session (others + amount {.login}))
    {buffer : CircularBuffer} (loaded : Loaded buffer) :
    Law spares packets client { session with mSendBuffer := buffer }
      (others + amount {.written}) := by
  rcases law.toNumbers with ⟨counted, connecting, receiving, requesting, pending, nonneg, unused,
    releases, once⟩
  refine ⟨?_, ?_, fun _ => loaded, ?_, law.ready, law.follows⟩
  · constructor <;> simp_all <;> omega
  · intro positive
    simp only [Pi.add_apply, amount_singleton, reduceCtorEq, reduceIte] at positive requesting
    omega
  · intro positive
    apply law.quiet
    simpa using positive

/-- A request that has been written goes on. -/
theorem Law.request {token next : Token}
    (law : Law spares packets client session (others + amount {token}))
    (forward : token = .written ∧ next = .queued ∨ token = .queued ∧ next = .flush) :
    Law spares packets client session (others + amount {next}) := by
  rcases law.toNumbers with ⟨counted, connecting, receiving, requesting, pending, nonneg, unused,
    releases, once⟩
  refine law.recount ?_ rfl rfl ?_ ?_ ?_ law.ready
  · rcases forward with ⟨rfl, rfl⟩ | ⟨rfl, rfl⟩ <;> constructor <;> simp_all <;> omega
  · rcases forward with ⟨rfl, rfl⟩ | ⟨rfl, rfl⟩ <;> simp
  · rcases forward with ⟨rfl, rfl⟩ | ⟨rfl, rfl⟩ <;> simp <;> omega
  · rcases forward with ⟨rfl, rfl⟩ | ⟨rfl, rfl⟩ <;> simp

/-- A send is counted. -/
theorem Law.countSend (law : Law spares packets client session (others + amount {.uncounted})) :
    session.mSendPendingCount + 1 = 1 ∧
      Law spares packets client { session with mSendPendingCount := session.mSendPendingCount + 1 }
        (others + amount 0) := by
  rcases law.toNumbers with ⟨counted, connecting, receiving, requesting, pending, nonneg, unused,
    releases, once⟩
  refine ⟨?_, law.recount ?_ rfl rfl ?_ ?_ ?_ law.ready⟩
  · simp at requesting
    omega
  · constructor <;> simp_all <;> omega
  · simp
  · simp
  · simp

/-- Its completion is counted. -/
theorem Law.countSent (law : Law spares packets client session (others + amount {.sent}))
    (one : session.mSendPendingCount = 1) :
    Law spares packets client { session with mSendPendingCount := session.mSendPendingCount + -1 }
      (others + amount 0) := by
  rcases law.toNumbers with ⟨counted, connecting, receiving, requesting, pending, nonneg, unused,
    releases, once⟩
  refine law.recount ?_ rfl rfl ?_ ?_ ?_ law.ready
  · constructor <;> simp_all <;> omega
  · simp
  · simp
  · simp

end Laws

/-! ## Receives -/

section Receives

open MyPacket.Client

variable {packets : List Packet} {receive other : Client} {window : WsaBuf} {count : ℕ}

/-- The bytes of a completed receive are in the buffer and have not been committed. -/
def Arrived (packets : List Packet) (receive : Client) (count : ℕ) : Prop :=
  ∃ before after, (handling packets).Reachable before ∧
    (handling packets).Step before count after ∧ receive.recvCompletion count = some after

theorem Follows.congr (follows : Follows packets receive)
    (same_total : other.session.mRecvTotal = receive.session.mRecvTotal)
    (same_printed : other.printed = receive.printed) : Follows packets other := by
  rcases follows with ⟨client, reachable, total_eq, printed_eq⟩
  exact ⟨client, reachable, same_total.trans total_eq, same_printed.trans printed_eq⟩

/-- A receive completes as a step of handling. -/
theorem Posted.arrived (posted : Posted packets receive window) (positive : 0 < count)
    (fits : count ≤ window.len)
    (inside : receive.session.mRecvTotal + count ≤ (encodeAll packets).length) :
    ∃ position, window.buf = some position ∧
      Arrived packets ⟨receive.session.deliver position
        (((encodeAll packets).drop receive.session.mRecvTotal).take count), receive.printed⟩
        count := by
  rcases posted with ⟨client, len, position, posted, reachable, postRecv, rfl, rfl⟩
  rcases exists_replay reachable with ⟨session, done, rest, progress, rfl⟩
  have connected : (replay session).session.mConnected = true := by
    by_contra refused
    rw [DummyClientSession.postRecv, if_pos (Bool.eq_false_of_not_eq_true refused)] at postRecv
    cases postRecv
  have window_eq := @DummyClientSession.postRecv_eq (replay session).session progress.wellFormed
    progress.capacity connected
  rw [postRecv, eq_comm, Option.ite_none_left_eq_some, Option.some.injEq, Prod.mk.injEq,
    Prod.mk.injEq] at window_eq
  rcases window_eq with ⟨_, ⟨rfl, rfl⟩, rfl⟩
  rcases progress.exists_step positive fits inside with ⟨next, step⟩
  have handled := (handling_step_iff progress connected).mpr ⟨next, step, rfl⟩
  refine ⟨_, rfl, _, _, reachable, handled, ?_⟩
  rcases handled with ⟨_, _, _, again, _, _, _, completed⟩
  cases postRecv.symm.trans again
  exact completed

end Receives


/-! ## The login in the send buffer -/

section Login

open Protobuf Wire Generated

theorem byteSize_login_le (id : Int32) : byteSize (⟨some id, 0⟩ : LoginRequest) ≤ 11 := by
  have size_eq : byteSize (⟨some id, 0⟩ : LoginRequest) =
      1 + CodedOutputStream.varintSize32SignExtended id :=
    rfl
  rw [size_eq, CodedOutputStream.varintSize32SignExtended, CodedOutputStream.varintSize32,
    CodedOutputStream.varintSize32Fallback]
  split
  · omega
  · repeat' split
    all_goals omega

/-- A login request fills its packet. -/
theorem length_loginBytes (id : Int32) :
    (loginBytes id).length = byteSize (⟨some id, 0⟩ : LoginRequest) + headerSize := by
  have small := byteSize_login_le id
  have fits : byteSize (⟨some id, 0⟩ : LoginRequest) ≤ intMax := small.trans (by decide)
  rw [loginBytes, List.length_append, PacketHeader.length_toBytes, Nat.add_comm]
  exact congrArg (· + headerSize) (MessageName.loginRequest.length_encode fits)

/-- A loaded buffer has something to send. -/
theorem Loaded.size_le {buffer : CircularBuffer} (loaded : Loaded buffer) :
    0 < buffer.mARegionSize ∧ buffer.mARegionSize < 2 ^ 32 := by
  rcases loaded with ⟨id, bytes_eq⟩
  have small := byteSize_login_le id
  have length_eq := congrArg List.length bytes_eq
  rw [CircularBuffer.length_bytesA, length_loginBytes, headerSize] at length_eq
  omega

theorem Loaded.contiguious_ne_zero {buffer : CircularBuffer} (loaded : Loaded buffer) :
    buffer.getContiguiousBytes ≠ 0 := by
  rcases loaded.size_le with ⟨some, _⟩
  rw [CircularBuffer.getContiguiousBytes, if_pos some]
  exact some.ne'

/-- The window of a send is the login. -/
theorem Loaded.sends {buffer : CircularBuffer} (loaded : Loaded buffer) :
    Sends buffer ⟨Word.toUInt32 buffer.getContiguiousBytes, buffer.getBufferStart⟩ := by
  rcases loaded.size_le with ⟨some, small⟩
  rcases loaded with ⟨id, bytes_eq⟩
  refine ⟨id, buffer.mARegionPointer, ?_, ?_⟩
  · rw [CircularBuffer.getBufferStart, if_pos some]
  · rw [CircularBuffer.getContiguiousBytes, if_pos some, Word.toUInt32_eq small]
    exact bytes_eq

/-- What is written first into a new buffer. -/
theorem bytesA_store_construct (raw : ℕ → UInt8) (capacity : ℕ) (bytes : List UInt8) :
    (((CircularBuffer.construct raw capacity).store bytes).commit bytes.length).bytesA = bytes := by
  simp only [CircularBuffer.bytesA, CircularBuffer.commit, CircularBuffer.store,
    CircularBuffer.construct, CircularBuffer.getBuffer, Option.isSome_none, Bool.false_eq_true,
    if_false, Nat.zero_add]
  exact Region.read_write_self raw 0 bytes

/-- A login has room in a buffer that has not been used. -/
theorem Session.writeLogin_eq {connections : ℕ} {session : Session connections}
    (blank : Blank session.mSendBuffer) (id : Int32) :
    ∃ buffer, Loaded buffer ∧
      session.writeLogin id = some (true, { session with mSendBuffer := buffer }) := by
  rcases blank with ⟨raw, buffer_eq⟩
  have small := byteSize_login_le id
  have free_eq : session.mSendBuffer.getFreeSpaceSize =
      (DummyClient.DummyClientSession.clientBufSize,
        .construct raw DummyClient.DummyClientSession.clientBufSize) := by
    rw [buffer_eq]
    rfl
  have room : headerSize + byteSize (⟨some id, 0⟩ : LoginRequest) ≤
      session.mSendBuffer.getFreeSpaceSize.1 := by
    rw [free_eq, headerSize, DummyClient.DummyClientSession.clientBufSize]
    omega
  have fits : headerSize + byteSize (⟨some id, 0⟩ : LoginRequest) ≤ intMax := by
    rw [headerSize, intMax]
    omega
  rcases @sendMessage_of_room .loginRequest ⟨some id, 0⟩ rfl fits PacketType.csLogin.code
    ⟨session.mSendBuffer, true, 0⟩ rfl room with ⟨sized, sent⟩
  have written := congrArg (Option.map fun sent : Bool × LoginRequest × SendingSession =>
    (sent.1, { session with mSendBuffer := sent.2.2.mSendBuffer })) sent
  refine ⟨_, ⟨id, ?_⟩, written⟩
  simp only [free_eq]
  rw [Nat.add_comm, ← length_loginBytes]
  exact bytesA_store_construct raw _ (loginBytes id)

end Login

section Rules

variable {workers connections : ℕ} {spares : Prop}
  {packets : ClientId connections → List Packet}
  {thread : Thread workers} {ghost : Ghost connections} {client : ClientId connections}
  {kept : Multiset (ClientId connections × Token)} {receive : Client}
  {context : OverlappedIOContext connections} {buffer : CircularBuffer}

/-! ## The receive buffer -/

/-- What a thread makes of a receive buffer whose baton it has. -/
theorem Guarded.received {process : Process workers connections}
    {ghosts : Thread workers → Ghost connections} (guarded : Guarded spares packets process ghosts)
    (known : (ghosts thread).receive = some (client, receive)) {next : Client}
    (follows : Follows (packets client) next) :
    Guarded spares packets
      (process.setSession client { process.session client with receive := next })
      (Function.update ghosts thread
        { ghosts thread with receive := some (client, next) }) := by
  have knows := guarded.knows thread
  rcases knows.receive client receive known with ⟨baton, _⟩
  have mem : (client, Token.baton) ∈ (ghosts thread).tokens := Multiset.count_pos.mp baton
  rcases Multiset.exists_cons_of_mem mem with ⟨kept, tokens_eq⟩
  have spent : (ghosts thread).tokens = own client {.baton} + kept := tokens_eq
  refine guarded.onContexts spent spent rfl rfl rfl (fun _ _ => rfl) ?_ ?_ ?_ (.inl rfl) .inl
  · intro others law
    apply law.receive _ follows
    simp
  · refine ⟨knows.distinct, knows.requests, ?_, ?_, ?_, knows.counting⟩
    · rintro other receive ⟨⟩
      refine ⟨baton, ?_⟩
      simp [Process.setSession]
    · intro other buffer sends
      rcases knows.send other buffer sends with ⟨requested, buffer_eq⟩
      refine ⟨requested, ?_⟩
      by_cases same : other = client
      · subst same
        simpa [Process.setSession] using buffer_eq
      · simpa [Process.setSession, same] using buffer_eq
    · intro other closed
      rcases knows.closed other closed with ⟨held, disconnected⟩
      refine ⟨held, ?_⟩
      by_cases same : other = client
      · subst same
        simpa [Process.setSession] using disconnected
      · simpa [Process.setSession, same] using disconnected
  · right
    simp [mayReceive]

theorem goes_recvBuffer (known : ghost.receive = some (client, receive)) (call : BufferCall) :
    Goes spares packets thread (.recvBuffer client call) ghost fun result next =>
      result = (receive.session.mRecvBuffer.onCall call).1 ∧ next = { ghost with
        receive := some (client, { receive with session := { receive.session with
          mRecvBuffer := (receive.session.mRecvBuffer.onCall call).2 } }) } := by
  rintro process ghosts guarded rfl
  refine ⟨trivial, ?_⟩
  intro input result after _ performed
  rcases (guarded.knows thread).receive client receive known with ⟨_, receive_eq⟩
  have follows := (guarded.law client).follows
  simp only [program, Process.perform, receive_eq] at performed
  cases performed
  rw [receive_eq] at follows
  exact ⟨_, guarded.received known (follows.congr rfl rfl), rfl, rfl⟩

/-- A completed receive is handled. -/
theorem goes_recvCompletion (known : ghost.receive = some (client, receive)) {transferred : ℕ}
    (arrived : Arrived (packets client) receive transferred) :
    Goes spares packets thread (.recvCompletion client transferred) ghost fun (asked : Bool) next =>
      ∃ after, (handling (packets client)).Reachable after ∧
        asked = !after.session.mConnected ∧
        next = { ghost with receive := some (client, after) } := by
  rintro process ghosts guarded rfl
  rcases (guarded.knows thread).receive client receive known with ⟨_, receive_eq⟩
  rcases arrived with ⟨before, handled, reachable, step, completed⟩
  have later := reachable.step step
  have enabled : ((process.session client).receive.recvCompletion transferred).isSome := by
    rw [receive_eq, completed]
    rfl
  refine ⟨enabled, ?_⟩
  intro input result after _ performed
  simp only [program, Process.perform, receive_eq, completed] at performed
  cases performed
  exact ⟨_, guarded.received known ⟨handled, later, rfl, rfl⟩, handled, later, rfl, rfl⟩

/-! ## Contexts -/

/-- The thread does not use the buffer of a context any more. -/
def Ghost.without (mIoType : IOType) (ghost : Ghost connections) : Ghost connections :=
  match mIoType with
  | .ioSend => { ghost with send := none }
  | .ioRecv | .ioRecvZero => { ghost with receive := none, closed := none }
  | _ => ghost

@[simp]
theorem Ghost.without_locks (mIoType : IOType) : (ghost.without mIoType).locks = ghost.locks := by
  cases mIoType <;> rfl

@[simp]
theorem Ghost.without_front (mIoType : IOType) : (ghost.without mIoType).front = ghost.front := by
  cases mIoType <;> rfl

/-- The context takes what it needs along, or is left with its reference. -/
theorem goes_submit (owner : context.mSessionObject = client)
    (tokens_eq : ghost.tokens = own client context.mIoType.needs + kept)
    (known : context.mIoType ≠ .ioNone)
    (zero : context.mIoType = .ioRecvZero → ∃ receive,
      ghost.receive = some (client, receive) ∧ Quiet (packets client) receive)
    (full : context.mIoType = .ioRecv → ∃ receive,
      ghost.receive = some (client, receive) ∧ Posted (packets client) receive context.mWsaBuf)
    (sends : context.mIoType = .ioSend → ∃ buffer,
      ghost.send = some (client, buffer) ∧ Sends buffer context.mWsaBuf)
    (locked : context.mIoType = .ioSend → Lock.mSendBufferLock client ∈ ghost.locks) :
    Goes spares packets thread (.submit context) ghost fun (posted : Bool) next =>
      next = { ghost.without context.mIoType with
        tokens := own client (if posted then context.mIoType.leaves else {.ref}) + kept } := by
  subst owner
  rintro process ghosts guarded rfl
  have knows := guarded.knows thread
  have fine : context.mIoType = .ioSend →
      Sends (process.session context.mSessionObject).mSendBuffer context.mWsaBuf := by
    intro kind
    rcases sends kind with ⟨buffer, same, sends⟩
    rw [(knows.send _ buffer same).2]
    exact sends
  refine ⟨fine, ?_⟩
  intro input result after _ performed
  have ready : context.Ready context.mSessionObject (packets context.mSessionObject)
      (process.session context.mSessionObject).receive := by
    refine ⟨rfl, known, ?_, ?_⟩
    · intro kind
      rcases zero kind with ⟨receive, same, quiet⟩
      rw [(knows.receive _ receive same).2]
      exact quiet
    · intro kind
      rcases full kind with ⟨receive, same, posted⟩
      rw [(knows.receive _ receive same).2]
      exact posted
  have keep {after : Process workers connections} {session : Session connections}
      {tokens : Multiset Token} (few : tokens = {.ref} ∨ tokens = context.mIoType.leaves)
      (session_eq : after.session =
        Function.update process.session context.mSessionObject session)
      (same_requests : after.requests = process.requests)
      (same_receive : session.receive = (process.session context.mSessionObject).receive)
      (same_send : session.mSendBuffer = (process.session context.mSessionObject).mSendBuffer)
      (same_connected : session.mConnected = (process.session context.mSessionObject).mConnected) :
      Knows after thread { (ghosts thread).without context.mIoType with
        tokens := own context.mSessionObject tokens + kept } := by
    refine knows.keep tokens_eq rfl (Ghost.without_locks _) (Ghost.without_front _) session_eq
      (congrFun same_requests thread) ?_ ?_ ?_ ?_ ?_
    · cases context.mIoType <;> simp [IOType.needs, IOType.brings]
    · cases context.mIoType <;> simp [IOType.needs, IOType.brings, Ghost.without, same_receive]
    · cases context.mIoType <;> simp [IOType.needs, IOType.brings, Ghost.without, same_send]
    · cases context.mIoType <;> simp [IOType.needs, IOType.brings, Ghost.without, same_connected]
    · intro counting
      rcases few with rfl | rfl
      · simp at counting
      · cases kind : context.mIoType with
        | ioSend => exact locked kind
        | _ => simp [kind, IOType.leaves] at counting
  simp only [program, Process.perform] at performed
  split at performed
  · cases performed
    refine ⟨_, ?_, rfl⟩
    exact guarded.onContexts tokens_eq rfl (Ghost.without_locks _) rfl rfl (fun _ _ => rfl)
      (fun _ law => law.submit ready) (keep (.inr rfl) rfl rfl rfl rfl rfl)
      (.inl rfl) (.inl rfl) .inl
  · cases performed
    have same_session := (Function.update_eq_self context.mSessionObject process.session).symm
    refine ⟨_, ?_, rfl⟩
    exact guarded.onSession tokens_eq rfl (Ghost.without_locks _) same_session rfl (fun _ _ => rfl)
      rfl (fun _ law => law.refuse known) (keep (.inl rfl) same_session rfl rfl rfl rfl)
      (.inl rfl) (.inl rfl) .inl

/-- What a completion that has been dequeued leaves of the receive buffer. -/
def Taken (packets : List Packet) (context : OverlappedIOContext connections) (ret : Bool)
    (dwTransferred : ℕ) (receive : Client) : Prop :=
  match context.mIoType with
  | .ioNone => False
  | .ioRecvZero => Quiet packets receive
  | .ioRecv => Failed ret dwTransferred ∨ Arrived packets receive dwTransferred
  | _ => True

/-- The status of a completion, and what the thread holds for it. -/
def Dequeued (packets : ClientId connections → List Packet) (ghost : Ghost connections)
    (status : Status connections) (next : Ghost connections) : Prop :=
  match status with
  | .packet context ret dwTransferred => ∃ receive,
      Taken (packets context.mSessionObject) context ret dwTransferred receive ∧
        next = { ghost with
          tokens := own context.mSessionObject context.mIoType.brings + ghost.tokens
          receive := if context.mIoType.receives then some (context.mSessionObject, receive)
            else none
          send := none
          closed := none }
  | _ => next = ghost

section Arrive

variable {stream : List Packet} {ret : Bool} {dwTransferred : ℕ}

theorem arrive_of_ne (ne : context.mIoType ≠ .ioRecv) :
    context.arrive stream ret dwTransferred receive = receive := by
  rw [OverlappedIOContext.arrive]
  split
  · next kind _ => exact absurd kind ne
  · rfl

/-- A completion brings what its context was ready for. -/
theorem taken_arrive (ready : context.Ready client stream receive)
    (reports : Failed ret dwTransferred ∨ context.Reports stream receive dwTransferred) :
    Taken stream context ret dwTransferred (context.arrive stream ret dwTransferred receive) := by
  rcases ready with ⟨_, known, quiet, posted⟩
  cases kind : context.mIoType with
  | ioNone => exact absurd kind known
  | ioRecvZero =>
      rw [arrive_of_ne (by simp [kind])]
      simpa only [Taken, kind] using quiet kind
  | ioRecv =>
      simp only [Taken, kind]
      apply or_iff_not_imp_left.mpr
      intro completed
      have reported := reports.resolve_left completed
      simp only [OverlappedIOContext.Reports, kind] at reported
      have some : 0 < dwTransferred := Nat.pos_of_ne_zero fun none => completed (Or.inr none)
      rcases (posted kind).arrived some reported.1 reported.2 with ⟨position, buf, arrived⟩
      simpa only [OverlappedIOContext.arrive, kind, buf, if_neg completed] using arrived
  | ioSend | ioConnect | ioDisconnect => simp only [Taken, kind]

theorem arrive_keeps :
    (context.arrive stream ret dwTransferred receive).session.mRecvTotal =
        receive.session.mRecvTotal ∧
      (context.arrive stream ret dwTransferred receive).printed = receive.printed := by
  rw [OverlappedIOContext.arrive]
  split
  · split <;> exact ⟨rfl, rfl⟩
  · exact ⟨rfl, rfl⟩

/-- A completion moves its tokens from the session to the worker. -/
theorem Law.arrive {packets : List Packet} {session : Session connections} {others : Amount}
    {rest : List (OverlappedIOContext connections)}
    (law : Law spares packets client session (others + amount 0 + session.carried))
    (split : session.inFlight.Perm (context :: rest)) :
    Law spares packets client { session with
        receive := context.arrive packets ret dwTransferred session.receive
        inFlight := rest }
      (others + amount context.mIoType.brings +
        Session.carried { session with inFlight := rest }) := by
  have dequeued := law.dequeue split
  by_cases kind : context.mIoType = .ioRecv
  · have baton : 0 < (others + amount context.mIoType.brings) .baton := by
      simp [kind, IOType.brings]
    exact dequeued.receive baton (dequeued.follows.congr arrive_keeps.1 arrive_keeps.2)
  · rw [arrive_of_ne kind]
    exact dequeued

end Arrive

/-- The completion brings its tokens back. -/
theorem goes_getQueuedCompletionStatus :
    Goes spares packets thread .getQueuedCompletionStatus ghost (Dequeued packets ghost) := by
  rintro process ghosts guarded rfl
  refine ⟨trivial, ?_⟩
  intro input result after _ performed
  simp only [program, Process.perform] at performed
  split at performed
  · cases performed
    exact ⟨_, guarded.keep, rfl⟩
  · cases performed
    exact ⟨_, guarded.keep, rfl⟩
  · next context ret dwTransferred _ =>
      split at performed
      · next enabled =>
          rcases enabled with ⟨inFlight, reports⟩
          cases performed
          have split := List.perm_cons_erase inFlight
          have ready := (guarded.law context.mSessionObject).ready context inFlight
          have knows := guarded.knows thread
          refine ⟨_, ?_, _, taken_arrive ready reports, rfl⟩
          refine guarded.onContexts (eq_own_zero _) rfl rfl rfl rfl (fun _ _ => rfl)
            (fun _ law => law.arrive split) ?_ ?_ (.inl rfl) .inl
          · refine knows.onSession (eq_own_zero _) rfl rfl
              (knows.waiting (eq_own_zero _) rfl rfl rfl (by simp)) ?_ ?_ ?_ ?_
            · intro other receive known
              rw [Option.ite_none_right_eq_some, Option.some.injEq, Prod.mk.injEq] at known
              rcases known with ⟨receives, rfl, rfl⟩
              constructor
              · rw [Ghost.share_own rfl]
                cases kind : context.mIoType <;>
                  simp_all [IOType.receives, IOType.brings]
              · simp [Process.setSession]
            · rintro other buffer ⟨⟩
            · rintro other ⟨⟩
            · cases context.mIoType <;> simp [IOType.brings]
          · by_cases kind : context.mIoType = .ioRecv
            · have baton := Session.carried_baton inFlight (by rw [kind]; rfl)
              right
              simp only [mayReceive, Pi.add_apply]
              omega
            · exact Or.inl (arrive_of_ne kind)
      · cases performed

/-! ## The send buffer and the list of requests -/

/-- The login request is written once. -/
theorem goes_writeRequest (tokens_eq : ghost.tokens = own client {.login} + kept)
    (unknown : ghost.send = none) (id : Int32) :
    Goes spares packets thread (.writeRequest client id) ghost fun (written : Bool) next =>
      written = true ∧ next = { ghost with tokens := own client {.written} + kept } := by
  rintro process ghosts guarded rfl
  rcases guarded.law_spent tokens_eq with ⟨others, _, law⟩
  have blank : Blank (process.session client).mSendBuffer := by
    apply law.blank
    simp
  rcases Session.writeLogin_eq blank id with ⟨buffer, loaded, written⟩
  have enabled : ((process.session client).writeLogin id).isSome := by
    rw [written]
    rfl
  refine ⟨enabled, ?_⟩
  intro input result after _ performed
  simp only [program, Process.perform, written, Option.elim_some] at performed
  cases performed
  refine ⟨_, ?_, rfl, rfl⟩
  refine guarded.onSession tokens_eq rfl rfl rfl rfl (fun _ _ => rfl) rfl
    (fun _ law => law.write loaded) ?_ (.inl rfl) ?_ .inl
  · refine (guarded.knows thread).keep tokens_eq rfl rfl rfl rfl rfl ?_ ?_ (.inl unknown) ?_ ?_ <;>
      simp
  · right
    simp

theorem goes_pushRequest (tokens_eq : ghost.tokens = own client {.written} + kept) :
    Goes spares packets thread (.pushRequest client) ghost fun _ next =>
      next = { ghost with tokens := own client {.queued} + kept } := by
  rintro process ghosts guarded rfl
  refine ⟨trivial, ?_⟩
  intro input result after _ performed
  cases performed
  have knows := guarded.knows thread
  have same_session := (Function.update_eq_self client process.session).symm
  refine ⟨_, ?_, rfl⟩
  refine guarded.onSession tokens_eq rfl rfl same_session rfl ?_ rfl
    (fun _ law => law.request (.inl ⟨rfl, rfl⟩)) ?_ (.inl rfl) (.inl rfl) .inl
  · intro other ne
    exact Function.update_of_ne ne _ _
  · refine knows.renew tokens_eq rfl rfl same_session ?_ ?_ ?_ ?_ ?_
    · rcases knows.requests with ⟨waiting, requests_eq, enough⟩
      refine ⟨waiting ++ [client], ?_, ?_⟩
      · simp [Process.setRequests, requests_eq]
      · intro other
        have enough := enough other
        rw [List.count_append, List.count_singleton]
        by_cases same : other = client
        · subst same
          rw [Ghost.share_own tokens_eq] at enough
          rw [Ghost.share_own rfl]
          simp at enough ⊢
          omega
        · rw [Ghost.share_of_ne tokens_eq same] at enough
          rw [Ghost.share_of_ne rfl same]
          simpa [Ne.symm same] using enough
    all_goals simp

/-- The request at the front of the list is going to be sent. -/
def Fronted (ghost : Ghost connections) (front : Option (ClientId connections))
    (next : Ghost connections) : Prop :=
  match front with
  | none => next = ghost
  | some client => ∃ kept buffer, ghost.tokens = own client {.queued} + kept ∧ Loaded buffer ∧
      next = { ghost with
        tokens := own client {.flush} + kept
        front := some client
        send := some (client, buffer) }

/-- A worker reads the front of its own list. -/
theorem goes_frontRequest (free : ghost.front = none) :
    Goes spares packets thread .frontRequest ghost (Fronted ghost) := by
  rintro process ghosts guarded rfl
  refine ⟨trivial, ?_⟩
  intro input result after _ performed
  cases performed
  have knows := guarded.knows thread
  rcases knows.requests with ⟨waiting, requests_eq, enough⟩
  rw [free, Option.toList_none, List.nil_append] at requests_eq
  rw [requests_eq]
  cases waiting with
  | nil => exact ⟨_, guarded.keep, rfl⟩
  | cons client waiting =>
      have queued : 0 < (ghosts thread).share client .queued := by
        have enough := enough client
        rw [List.count_cons_self] at enough
        omega
      rcases Multiset.exists_cons_of_mem (Multiset.count_pos.mp queued) with ⟨kept, tokens_eq⟩
      have spent : (ghosts thread).tokens = own client {.queued} + kept := tokens_eq
      rcases guarded.law_spent spent with ⟨others, _, law⟩
      have loaded : Loaded (process.session client).mSendBuffer := by
        apply law.loaded
        simp
      have same_session := (Function.update_eq_self client process.session).symm
      refine ⟨_, ?_, kept, _, spent, loaded, rfl⟩
      refine guarded.onSession spent rfl rfl same_session rfl (fun _ _ => rfl)
        rfl (fun _ law => law.request (.inr ⟨rfl, rfl⟩)) ?_ (.inl rfl) (.inl rfl) .inl
      have renewed : Knows process thread { ghosts thread with
          tokens := own client {.flush} + kept
          front := some client
          send := none } := by
        refine knows.renew spent rfl rfl same_session ?_ ?_ (.inl rfl) ?_ ?_
        · refine ⟨waiting, by simp [requests_eq], ?_⟩
          intro other
          have enough := enough other
          by_cases same : other = client
          · subst same
            rw [Ghost.share_own spent] at enough
            rw [Ghost.share_own rfl]
            simp at enough ⊢
            omega
          · rw [Ghost.share_of_ne spent same] at enough
            rw [Ghost.share_of_ne rfl same]
            simpa [Ne.symm same] using enough
        all_goals simp
      refine ⟨renewed.distinct, renewed.requests, renewed.receive, ?_, renewed.closed,
        renewed.counting⟩
      rintro other buffer ⟨⟩
      refine ⟨Nat.add_pos_left ?_ _, rfl⟩
      rw [Ghost.share_own rfl]
      simp

theorem goes_popRequest (front : ghost.front = some client) :
    Goes spares packets thread .popRequest ghost fun _ next =>
      next = { ghost with front := none } := by
  rintro process ghosts guarded rfl
  have knows := guarded.knows thread
  rcases knows.requests with ⟨waiting, requests_eq, enough⟩
  rw [front, Option.toList_some, List.singleton_append] at requests_eq
  have nonempty : process.requests thread ≠ [] := by
    rw [requests_eq]
    exact List.cons_ne_nil _ _
  refine ⟨nonempty, ?_⟩
  intro input result after _ performed
  simp only [program, Process.perform, requests_eq] at performed
  cases performed
  refine ⟨_, ?_, rfl⟩
  apply guarded.change
  · intro lock other
    by_cases same : other = thread
    · subst same
      rw [Function.update_self]
      exact guarded.owners lock other
    · rw [Function.update_of_ne same]
      exact guarded.owners lock other
  · exact fun _ _ law => law
  · refine ⟨knows.distinct, ⟨waiting, ?_, enough⟩, knows.receive, knows.send, knows.closed,
      knows.counting⟩
    simp [Process.setRequests]
  · exact fun other ne => Function.update_of_ne ne _ _
  · exact fun _ => Or.inl rfl
  · exact fun _ => Or.inl rfl
  · exact fun _ => Or.inl

/-- What is read of a buffer that is going to be sent. -/
theorem goes_readSendBuffer (known : ghost.send = some (client, buffer)) {call : BufferCall}
    (same : (buffer.onCall call).2 = buffer) :
    Goes spares packets thread (.sendBuffer client call) ghost fun result next =>
      result = (buffer.onCall call).1 ∧ next = ghost := by
  rintro process ghosts guarded rfl
  refine ⟨trivial, ?_⟩
  intro input result after _ performed
  rcases (guarded.knows thread).send client buffer known with ⟨_, buffer_eq⟩
  simp only [program, Process.perform, buffer_eq] at performed
  cases performed
  refine ⟨_, ?_, rfl, rfl⟩
  refine guarded.recount ?_ rfl rfl
  rw [same, ← buffer_eq]
  exact Function.update_eq_self client process.session

theorem goes_remove (tokens_eq : ghost.tokens = own client {.sent} + kept)
    (unknown : ghost.send = none) (transferred : ℕ) :
    Goes spares packets thread (.sendBuffer client (.remove transferred)) ghost fun _ next =>
      next = ghost := by
  rintro process ghosts guarded rfl
  refine ⟨trivial, ?_⟩
  intro input result after _ performed
  cases performed
  refine ⟨_, ?_, rfl⟩
  refine guarded.onSession tokens_eq tokens_eq rfl rfl rfl (fun _ _ => rfl) rfl ?_ ?_ (.inl rfl) ?_
    .inl
  · intro others law
    apply law.remove
    simp
  · refine (guarded.knows thread).keep tokens_eq tokens_eq rfl rfl rfl rfl ?_ ?_ (.inl unknown)
      ?_ ?_ <;> simp
  · right
    simp

/-- A request that is going to be sent is the only one. -/
theorem goes_loadSendPendingCount (tokens_eq : ghost.tokens = own client {.flush} + kept) :
    Goes spares packets thread (.loadSendPendingCount client) ghost fun (count : ℤ) next =>
      count = 0 ∧ next = ghost := by
  rintro process ghosts guarded rfl
  rcases guarded.law_spent tokens_eq with ⟨others, _, law⟩
  have none : (process.session client).mSendPendingCount = 0 := by
    have requesting := law.requesting
    have nonneg := law.nonneg
    simp at requesting
    omega
  refine ⟨none, ?_⟩
  intro input result after _ performed
  cases performed
  exact ⟨_, guarded.keep, none, rfl⟩

theorem goes_countSend (tokens_eq : ghost.tokens = own client {.uncounted} + kept) :
    Goes spares packets thread (.addSendPendingCount client 1) ghost fun (count : ℤ) next =>
      count = 1 ∧ next = { ghost with tokens := kept } := by
  rintro process ghosts guarded rfl
  rcases guarded.law_spent tokens_eq with ⟨others, _, law⟩
  refine ⟨Or.inr law.countSend.1, ?_⟩
  intro input result after _ performed
  cases performed
  refine ⟨_, ?_, law.countSend.1, rfl⟩
  refine guarded.onSession tokens_eq (eq_own_zero _) rfl rfl rfl (fun _ _ => rfl) rfl
    (fun _ law => law.countSend.2) ?_ (.inl rfl) (.inl rfl) .inl
  refine (guarded.knows thread).keep tokens_eq (eq_own_zero _) rfl rfl rfl rfl
    ?_ ?_ ?_ ?_ ?_ <;> simp

/-- Under the lock of the buffer every send in flight has been counted. -/
theorem Guarded.pending_eq_one {process : Process workers connections}
    {ghosts : Thread workers → Ghost connections} (guarded : Guarded spares packets process ghosts)
    (sent : 0 < (ghosts thread).share client .sent)
    (locked : Lock.mSendBufferLock client ∈ (ghosts thread).locks)
    (counted : (ghosts thread).share client .uncounted = 0)
    (carried : (process.session client).carried .uncounted = 0) :
    (process.session client).mSendPendingCount = 1 := by
  have others : Shares.others (Ghost.share client) thread ghosts .uncounted = 0 := by
    apply Shares.others_induction (Ghost.share client) ghosts fun amount => amount .uncounted = 0
    · rfl
    · intro amount more none none_more
      rw [Pi.add_apply, none, none_more]
    · intro other ne
      by_contra counting
      have held := (guarded.knows other).counting client (Nat.pos_of_ne_zero counting)
      rw [← guarded.owners] at held locked
      rw [locked, Option.some.injEq] at held
      exact ne held.symm
  have law := guarded.law client
  rw [Shares.total_eq _ thread] at law
  have requesting := law.requesting
  have pending := law.pending
  simp only [Pi.add_apply] at requesting pending
  omega

theorem Session.carried_uncounted {session : Session connections} :
    session.carried .uncounted = 0 := by
  rw [Session.carried]
  induction session.inFlight with
  | nil => rfl
  | cons context rest ih =>
      rw [List.map_cons, List.sum_cons, Pi.add_apply, ih]
      cases context.mIoType <;> simp [IOType.brings]

/-- A completed send is counted under the lock of its buffer. -/
theorem goes_countSent (tokens_eq : ghost.tokens = own client {.sent} + kept)
    (locked : Lock.mSendBufferLock client ∈ ghost.locks)
    (counted : ghost.share client .uncounted = 0) :
    Goes spares packets thread (.addSendPendingCount client (-1)) ghost fun (_ : ℤ) next =>
      next = { ghost with tokens := kept } := by
  rintro process ghosts guarded rfl
  have sent : 0 < (ghosts thread).share client .sent := by
    rw [Ghost.share_own tokens_eq]
    simp
  have one := guarded.pending_eq_one sent locked counted Session.carried_uncounted
  refine ⟨Or.inl (by rw [one]; rfl), ?_⟩
  intro input result after _ performed
  cases performed
  refine ⟨_, ?_, rfl⟩
  refine guarded.onSession tokens_eq (eq_own_zero _) rfl rfl rfl (fun _ _ => rfl) rfl
    (fun _ law => law.countSent one) ?_ (.inl rfl) (.inl rfl) .inl
  refine (guarded.knows thread).keep tokens_eq (eq_own_zero _) rfl rfl rfl rfl
    ?_ ?_ ?_ ?_ ?_ <;> simp

end Rules

end Gsp.DummyClients
