import Mathlib.Data.Fintype.Option
import Gsp.DummyClients.WorkerThread
import Gsp.Lib.Shares
import Gsp.Lib.Tokens

/-!
# Who may do what to a session

The rights to a session are tokens, which threads hold or which wait in contexts in
flight, in `mConnected` and in the lists of requests. A session is connected once: the
right to it turns into the reference that `mConnected` stands for, the baton of
whoever works on the receive buffer, and the right to log in. `Law` says how many
tokens there can be and what the buffers look like while they are held.

Nobody holds a reference for a request that waits to be sent.
-/

namespace Gsp.DummyClients

open DummyClient MyPacket Tokens

/-- A right to a session. -/
inductive Token where
  /-- A reference for a context. -/
  | ref
  /-- The right to connect, before the reference for it has been added. -/
  | fresh
  /-- The right to connect, with the reference for it. -/
  | start
  /-- The reference of a connection that is being closed. -/
  | hold
  /-- The use of the receive buffer. -/
  | baton
  /-- The right to log in. -/
  | login
  /-- A request that has been written. -/
  | written
  /-- A request that waits. -/
  | queued
  /-- A request that is about to be sent, before it has a context. -/
  | flush
  /-- A request with its context. -/
  | sending
  /-- A completed send that has not been counted. -/
  | sent
  /-- A send in flight that has not been counted. -/
  | uncounted
  /-- A call of `OnRelease` that is due. -/
  | releasing
deriving DecidableEq

/-- How many of each there are. -/
abbrev Amount : Type := Token → ℕ

/-! ## What the receive buffer is in the middle of -/

section Receive

variable (packets : List Packet) (receive : Client)

/-- Between two receives. -/
def Quiet : Prop := (handling packets).Reachable receive ∧ receive.session.mConnected = true

/-- A receive is in flight. -/
def Posted (window : WsaBuf) : Prop :=
  ∃ client len position posted, (handling packets).Reachable client ∧
    client.session.postRecv = some ((len, position), posted) ∧
    receive = ⟨posted, client.printed⟩ ∧ window = ⟨len, some position⟩

/-- What has been received and printed is what a single session can have received and
printed. -/
def Follows : Prop :=
  ∃ client, (handling packets).Reachable client ∧
    receive.session.mRecvTotal = client.session.mRecvTotal ∧ receive.printed = client.printed

end Receive

/-! ## The send buffer -/

/-- The bytes of a login. -/
def loginBytes (id : Int32) : List UInt8 :=
  (PacketHeader.mk (toShort (Protobuf.Generated.byteSize (⟨some id, 0⟩ : LoginRequest)))
      PacketType.csLogin.code).toBytes ++ LoginRequest.schema.encode ⟨some id, 0⟩

/-- Nothing has been written. -/
def Blank (buffer : CircularBuffer) : Prop :=
  ∃ raw, buffer = .construct raw DummyClient.DummyClientSession.clientBufSize

/-- A login has been written. -/
def Loaded (buffer : CircularBuffer) : Prop := ∃ id, buffer.bytesA = loginBytes id

/-- The window has a login in it. -/
def Sends (buffer : CircularBuffer) (window : WsaBuf) : Prop :=
  ∃ id start, window.buf = some start ∧
    Region.read buffer.mBuffer start window.len = loginBytes id

/-! ## The law of a session -/

/-- What a completed context brings: its reference and what it has taken along. -/
def IOType.brings : IOType → Multiset Token
  | .ioNone => 0
  | .ioSend => {.sent, .ref}
  | .ioRecv | .ioRecvZero => {.baton, .ref}
  | .ioDisconnect => {.hold, .ref}
  | .ioConnect => {.start, .ref}

section Law

variable {connections : ℕ}

/-- The tokens that wait in contexts in flight. -/
def Session.carried (session : Session connections) : Amount :=
  (session.inFlight.map fun context => amount context.mIoType.brings).sum

/-- The numbers of tokens, wherever they are. `spares` is for runs in which workers add
references only to sessions that have one. -/
structure Numbers (spares : Prop) (session : Session connections) (tokens : Amount) : Prop where
  counted : ((tokens .ref + tokens .start + tokens .hold + session.mConnected.toNat : ℕ) : ℤ) ≤
    session.mRefCount
  connecting : tokens .fresh + tokens .start + tokens .hold + session.mConnected.toNat ≤ 1
  receiving : tokens .fresh + tokens .start + tokens .baton ≤ 1
  requesting : ((tokens .fresh + tokens .start + tokens .login + tokens .written +
    tokens .queued + tokens .flush + tokens .sending + tokens .uncounted : ℕ) : ℤ) +
    session.mSendPendingCount ≤ 1
  pending : (tokens .sent : ℤ) ≤ session.mSendPendingCount + tokens .uncounted
  nonneg : 0 ≤ session.mSendPendingCount
  unused : 0 < tokens .fresh → session.mRefCount = 0
  releases : session.released + tokens .releasing + (if 0 < session.mRefCount then 1 else 0) +
    2 * tokens .fresh + tokens .start + tokens .login + tokens .written + tokens .queued +
    tokens .flush ≤ 2
  once : spares → session.released + tokens .releasing +
    (if 0 < session.mRefCount then 1 else 0) + tokens .fresh ≤ 1

/-- A context in flight belongs to the session, and a receive to its window. -/
structure OverlappedIOContext.Ready (context : OverlappedIOContext connections)
    (client : ClientId connections) (packets : List Packet) (receive : Client) : Prop where
  owner : context.mSessionObject = client
  known : context.mIoType ≠ .ioNone
  quiet : context.mIoType = .ioRecvZero → Quiet packets receive
  posted : context.mIoType = .ioRecv → Posted packets receive context.mWsaBuf

/-- What the tokens of a session say of it. -/
structure Law (spares : Prop) (packets : List Packet) (client : ClientId connections)
    (session : Session connections) (tokens : Amount) : Prop extends
    Numbers spares session tokens where
  blank : 0 < tokens .fresh + tokens .start + tokens .login → Blank session.mSendBuffer
  loaded : 0 < tokens .written + tokens .queued + tokens .flush + tokens .sending →
    Loaded session.mSendBuffer
  quiet : 0 < tokens .fresh + tokens .start → Quiet packets session.receive
  ready : ∀ context ∈ session.inFlight, context.Ready client packets session.receive
  follows : Follows packets session.receive

variable {spares : Prop} {packets : List Packet} {client : ClientId connections}
  {session after : Session connections} {tokens next : Amount}

/-- The buffers stay as they are. -/
theorem Law.recount (law : Law spares packets client session tokens)
    (numbers : Numbers spares after next)
    (sameSend : after.mSendBuffer = session.mSendBuffer)
    (sameReceive : after.receive = session.receive)
    (blank : next .fresh + next .start + next .login ≤
      tokens .fresh + tokens .start + tokens .login)
    (loaded : next .written + next .queued + next .flush + next .sending ≤
      tokens .written + tokens .queued + tokens .flush + tokens .sending)
    (quiet : next .fresh + next .start ≤ tokens .fresh + tokens .start)
    (ready : ∀ context ∈ after.inFlight, context.Ready client packets session.receive) :
    Law spares packets client after next where
  toNumbers := numbers
  blank positive := by
    rw [sameSend]
    exact law.blank (positive.trans_le blank)
  loaded positive := by
    rw [sameSend]
    exact law.loaded (positive.trans_le loaded)
  quiet positive := by
    rw [sameReceive]
    exact law.quiet (positive.trans_le quiet)
  ready context contextMem := by
    rw [sameReceive]
    exact ready context contextMem
  follows := by
    rw [sameReceive]
    exact law.follows

theorem Session.carried_of_perm {context : OverlappedIOContext connections}
    {rest : List (OverlappedIOContext connections)}
    (split : session.inFlight.Perm (context :: rest)) :
    session.carried = amount context.mIoType.brings +
      Session.carried { session with inFlight := rest } := by
  simp only [Session.carried]
  rw [(split.map _).sum_eq, List.map_cons, List.sum_cons]

/-- Every context in flight has a reference. -/
theorem Law.inFlight_eq_nil (law : Law spares packets client session tokens)
    (unreferenced : session.carried .ref = 0) : session.inFlight = [] := by
  apply List.eq_nil_iff_forall_not_mem.mpr
  intro context contextMem
  have known := (law.ready context contextMem).known
  rw [Session.carried_of_perm (List.perm_cons_erase contextMem)] at unreferenced
  cases kind : context.mIoType <;>
    simp_all [IOType.brings, amount]

end Law

/-! ## What a thread holds -/

/-- The locks and tokens of a thread, the request at the front of its list while it is
being sent, the buffers it works on, and a session it has seen disconnected. -/
structure Ghost (connections : ℕ) where
  locks : List (Lock connections)
  tokens : Multiset (ClientId connections × Token)
  front : Option (ClientId connections)
  receive : Option (ClientId connections × Client)
  send : Option (ClientId connections × CircularBuffer)
  closed : Option (ClientId connections)

section Guarded

variable {workers connections : ℕ}

/-- The tokens of this session that the thread holds. -/
def Ghost.share (client : ClientId connections) (ghost : Ghost connections) : Amount :=
  fun token => ghost.tokens.count (client, token)

/-- What a thread holds is what it believes to hold. -/
structure Knows (process : Process workers connections) (thread : Thread workers)
    (ghost : Ghost connections) : Prop where
  distinct : ghost.locks.Nodup
  requests : ∃ waiting, process.requests thread = ghost.front.toList ++ waiting ∧
    ∀ client, waiting.count client ≤ ghost.share client .queued
  receive : ∀ client receive, ghost.receive = some (client, receive) →
    0 < ghost.share client .baton ∧ (process.session client).receive = receive
  send : ∀ client buffer, ghost.send = some (client, buffer) →
    0 < ghost.share client .flush + ghost.share client .sending ∧
      (process.session client).mSendBuffer = buffer
  closed : ∀ client, ghost.closed = some client →
    0 < ghost.share client .baton ∧ (process.session client).mConnected = false
  counting : ∀ client, 0 < ghost.share client .uncounted →
    Lock.mSendBufferLock client ∈ ghost.locks

/-- The process and what its threads hold agree. -/
structure Guarded (spares : Prop) (packets : ClientId connections → List Packet)
    (process : Process workers connections) (ghosts : Thread workers → Ghost connections) :
    Prop where
  owners : ∀ lock thread, process.owner lock = some thread ↔ lock ∈ (ghosts thread).locks
  law : ∀ client, Law spares (packets client) client (process.session client)
    (Shares.total (Ghost.share client) ghosts + (process.session client).carried)
  knows : ∀ thread, Knows process thread (ghosts thread)

/-- The right to change the receive buffer. -/
def mayReceive (tokens : Amount) : ℕ :=
  tokens .fresh + tokens .start + tokens .baton

variable {spares : Prop} {packets : ClientId connections → List Packet}
  {process after : Process workers connections}
  {ghosts : Thread workers → Ghost connections} {thread : Thread workers}
  {next : Ghost connections}

/-- A thread changes what it holds, and the process changes with it. -/
theorem Guarded.change (guarded : Guarded spares packets process ghosts)
    (owners : ∀ lock other, after.owner lock = some other ↔
      lock ∈ (Function.update ghosts thread next other).locks)
    (law : ∀ client others,
      Law spares (packets client) client (process.session client)
        (others + (ghosts thread).share client + (process.session client).carried) →
      Law spares (packets client) client (after.session client)
        (others + next.share client + (after.session client).carried))
    (knows : Knows after thread next)
    (requests : ∀ other ≠ thread, after.requests other = process.requests other)
    (receives : ∀ client, (after.session client).receive = (process.session client).receive ∨
      0 < mayReceive ((ghosts thread).share client + (process.session client).carried))
    (sends : ∀ client,
      (after.session client).mSendBuffer = (process.session client).mSendBuffer ∨
      0 < (ghosts thread).share client .login + (ghosts thread).share client .sent)
    (connects : ∀ client, (after.session client).mConnected = true →
      (process.session client).mConnected = true ∨ 0 < (ghosts thread).share client .start) :
    Guarded spares packets after (Function.update ghosts thread next) := by
  refine ⟨owners, ?_, ?_⟩
  · intro client
    rw [Shares.total_update]
    apply law
    rw [← Shares.total_eq]
    exact guarded.law client
  · intro other
    by_cases same : other = thread
    · rw [same, Function.update_self]
      exact knows
    · rw [Function.update_of_ne same]
      have before := guarded.knows other
      -- a session whose baton another thread has is received from by that thread only
      have single (client : ClientId connections)
          (baton : 0 < (ghosts other).share client .baton) :
          mayReceive ((ghosts thread).share client + (process.session client).carried) = 0 := by
        have receiving := (guarded.law client).receiving
        rcases Shares.exists_others (Ghost.share client) ghosts same with
          ⟨rest, others_eq⟩
        rw [Shares.total_eq _ thread, others_eq] at receiving
        simp only [Pi.add_apply] at receiving
        simp only [mayReceive, Pi.add_apply]
        omega
      refine ⟨before.distinct, ?_, ?_, ?_, ?_, before.counting⟩
      · rw [requests other same]
        exact before.requests
      · intro client receive known
        rcases before.receive client receive known with ⟨baton, receive_eq⟩
        rcases receives client with unchanged | mine
        · exact ⟨baton, unchanged.trans receive_eq⟩
        · rw [single client baton] at mine
          cases mine
      · intro client buffer known
        rcases before.send client buffer known with ⟨requested, buffer_eq⟩
        refine ⟨requested, ?_⟩
        rcases sends client with unchanged | mine
        · exact unchanged.trans buffer_eq
        · -- a login is written before it is sent, and sent once
          have requesting := (guarded.law client).requesting
          have pending := (guarded.law client).pending
          rcases Shares.exists_others (Ghost.share client) ghosts same
            with ⟨rest, others_eq⟩
          rw [Shares.total_eq _ thread, others_eq] at requesting pending
          simp only [Pi.add_apply] at requesting pending
          omega
      · intro client known
        rcases before.closed client known with ⟨baton, disconnected⟩
        refine ⟨baton, ?_⟩
        by_contra reconnected
        rcases connects client (Bool.eq_true_of_not_eq_false reconnected) with still | mine
        · rw [disconnected] at still
          cases still
        · have none_mine := single client baton
          simp only [mayReceive, Pi.add_apply] at none_mine
          omega

end Guarded

end Gsp.DummyClients
