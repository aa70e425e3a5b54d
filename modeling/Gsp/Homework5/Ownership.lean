import Gsp.CircularBuffer.Invariant
import Gsp.Homework5.Locking
import Gsp.Lib.Shares
import Gsp.Lib.Tokens

/-!
# Who may do what to a client session

The rights to a pooled session are tokens, which threads hold or which wait in the free
list, in `mConnected` and in contexts in flight. A session leaves the pool once: the place
in the free list turns into the reference for its issue, and that comes back as the return
of the session when the last reference is released. Along the way one baton at a time
gives the use of `mRecvBuffer`. `Law` says how many tokens there can be, what the counts
of the session are, and what the buffers look like.

The law rests on one thing that the code does not see to: `FlushSend` adds a reference
after it has looked at `mConnected`, without one of its own. While no such reference is
added to a session that has none, the law holds in every state.
-/

namespace Gsp.Homework5.Locking.Owners

open Tokens

/-- A right to a session. -/
inductive Token where
  /-- A place in the free list. -/
  | free
  /-- A session taken from the free list, before the reference for its issue. -/
  | fresh
  /-- The reference for the issue, with the right to be connected. -/
  | start
  /-- The reference for the issue, when the connection is being closed. -/
  | hold
  /-- A reference for a context. -/
  | ref
  /-- The reference for a context that leads to a receive, with the use of `mRecvBuffer`. -/
  | baton
  /-- The reference for a send, until `mSendPendingCount` is decremented for it. -/
  | sending
  /-- A send in flight that has not been counted. -/
  | uncounted
  /-- The return of a session whose last reference has been released. -/
  | returning
  /-- Its return, when `mRecvBuffer` has been reset. -/
  | emptied
  /-- Its return, when both buffers have been reset. -/
  | cleared
deriving DecidableEq

/-- How many of each there are. -/
abbrev Amount : Type := Token → ℕ

/-- What a completed context brings. -/
def brings : IOType → Multiset Token
  | .ioAccept => {.start, .ref}
  | .ioConnect | .ioRecvZero | .ioRecv => {.baton}
  | .ioSend => {.sending}
  | .ioDisconnect => {.hold, .ref}
  | .ioNone => {.ref}

/-! ## What has happened to a session -/

section View

variable {workers : ℕ}

/-- An operation in the log of a run. -/
abbrev Entry (workers : ℕ) : Type :=
  Performed (Thread workers) Input Operation (State workers)

/-- The operation uses `mRecvBuffer` of the client, or completes a receive that has filled
its window. -/
def touches (client : ClientId) (entry : Entry workers) : Bool :=
  match entry.op with
  | .recvBuffer session _ | .memcpy session _ _ _ => session = .client client
  | .getQueuedCompletionStatus =>
      entry.input.packet.any fun packet =>
        packet.context.mSessionObject = .client client ∧ packet.context.mIoType = .ioRecv ∧
          packet.ret = true
  | _ => false

/-- A send of the client completes, and `DoIocpJob` takes the completion for a failure. -/
def failsSend (client : ClientId) (entry : Entry workers) : Bool :=
  match entry.op with
  | .getQueuedCompletionStatus =>
      entry.input.packet.any fun packet =>
        packet.context.mSessionObject = .client client ∧ packet.context.mIoType = .ioSend ∧
          (packet.ret = false ∨ packet.dwTransferred = 0)
  | _ => false

/-- What there is of a client in the server and in the log. -/
structure View (workers : ℕ) where
  session : Session
  inFlight : List Context
  free : ℕ
  touched : List (Entry workers)
  failed : ℕ

/-- What concerns this session. -/
def view (client : ClientId) (server : State workers × List (Entry workers)) : View workers where
  session := server.1.session (.client client)
  inFlight := server.1.inFlight.filter (·.mSessionObject = .client client)
  free := server.1.manager.mFreeSessionList.count client
  touched := server.2.filter (touches client)
  failed := server.2.countP (failsSend client)

/-- The tokens that wait in contexts in flight and in the free list. -/
def View.carried (view : View workers) : Amount :=
  amount (Multiset.replicate view.free .free) +
    (view.inFlight.map fun context => amount (brings context.mIoType)).sum

end View

/-! ## The law of a session -/

/-- Nothing of the session is in use. -/
def pooled (tokens : Amount) : ℕ :=
  tokens .free + tokens .fresh + tokens .returning + tokens .emptied + tokens .cleared

/-- The right to change `mRecvBuffer`. -/
def mayReceive (tokens : Amount) : ℕ := pooled tokens + tokens .start + tokens .baton

/-- The buffer is as constructed. -/
def Unused (buffer : CircularBuffer) : Prop := ∃ raw, buffer = .construct raw clientBufSize

section Law

variable {workers : ℕ} {client : ClientId} {window : WsaBuf}

/-- The end of a `PostRecv`, which has asked for the free space and for the write position. -/
structure HandsOut (client : ClientId) (asked handed : Entry workers) (window : WsaBuf)
    (buffer : CircularBuffer) : Prop where
  asks : asked.op = .recvBuffer (.client client) .getFreeSpaceSize
  hands : handed.op = .recvBuffer (.client client) .getBuffer
  alone : handed.thread = asked.thread
  leaves : (asked.state.session (.client client)).mRecvBuffer.getFreeSpaceSize.2 = buffer
  unchanged : (handed.state.session (.client client)).mRecvBuffer = buffer
  window : window =
    ⟨Word.toUInt32 (asked.state.session (.client client)).mRecvBuffer.getFreeSpaceSize.1,
      some buffer.getBuffer⟩

/-- The window is the last thing that has been asked of the buffer. -/
def Posted (client : ClientId) (window : WsaBuf) (buffer : CircularBuffer)
    (touched : List (Entry workers)) : Prop :=
  ∃ older asked handed, touched = older ++ [asked, handed] ∧
    HandsOut client asked handed window buffer

/-- The numbers of tokens, wherever they are. -/
structure Numbers (view : View workers) (tokens : Amount) : Prop where
  counted : ((tokens .ref + tokens .start + tokens .hold + tokens .baton + tokens .sending +
    view.session.mConnected.toNat : ℕ) : ℤ) ≤ view.session.mRefCount
  issued : pooled tokens + tokens .start + tokens .hold + view.session.mConnected.toNat ≤ 1
  receiving : mayReceive tokens ≤ 1
  unused : 0 < pooled tokens → view.session.mRefCount = 0
  pending : view.session.mSendPendingCount + tokens .uncounted = tokens .sending + view.failed
  settled : 0 < tokens .free + tokens .fresh + tokens .cleared → tokens .uncounted = 0

/-- What the tokens of a session say of it. -/
structure Law (client : ClientId) (view : View workers) (tokens : Amount) : Prop extends
    Numbers view tokens where
  recvCapacity : view.session.mRecvBuffer.mCapacity = clientBufSize
  sendCapacity : view.session.mSendBuffer.mCapacity = clientBufSize
  recvUnused : 0 < tokens .free + tokens .fresh + tokens .emptied + tokens .cleared →
    Unused view.session.mRecvBuffer
  sendUnused : 0 < tokens .free + tokens .fresh + tokens .cleared →
    Unused view.session.mSendBuffer
  posted : ∀ context ∈ view.inFlight, context.mIoType = .ioRecv →
    Posted client context.mWsaBuf view.session.mRecvBuffer view.touched

variable {view after : View workers} {tokens next : Amount}

/-- The buffers stay as they are. -/
theorem Law.recount (law : Law client view tokens) (numbers : Numbers after next)
    (sameRecv : after.session.mRecvBuffer = view.session.mRecvBuffer)
    (sameSend : after.session.mSendBuffer = view.session.mSendBuffer)
    (sameTouched : after.touched = view.touched)
    (recv : next .free + next .fresh + next .emptied + next .cleared ≤
      tokens .free + tokens .fresh + tokens .emptied + tokens .cleared)
    (send : next .free + next .fresh + next .cleared ≤
      tokens .free + tokens .fresh + tokens .cleared)
    (fewer : ∀ context ∈ after.inFlight, context.mIoType = .ioRecv → context ∈ view.inFlight) :
    Law client after next where
  toNumbers := numbers
  recvCapacity := by
    rw [sameRecv]
    exact law.recvCapacity
  sendCapacity := by
    rw [sameSend]
    exact law.sendCapacity
  recvUnused positive := by
    rw [sameRecv]
    exact law.recvUnused (positive.trans_le recv)
  sendUnused positive := by
    rw [sameSend]
    exact law.sendUnused (positive.trans_le send)
  posted context contextMem kind := by
    rw [sameRecv, sameTouched]
    exact law.posted context (fewer context contextMem kind) kind

end Law

/-! ## What a thread holds -/

/-- The locks and tokens of a thread, and a receive buffer it works on with what has been
done to it. -/
structure Ghost (workers : ℕ) where
  locks : List Lock
  tokens : Multiset (SessionId × Token)
  receive : Option (ClientId × CircularBuffer × List (Entry workers))

section Guarded

variable {workers : ℕ}

/-- The tokens of this session that the thread holds. -/
def Ghost.share (client : ClientId) (ghost : Ghost workers) : Amount :=
  fun token => ghost.tokens.count (.client client, token)

/-- What a thread holds is what it believes to hold. -/
structure Knows (server : State workers × List (Entry workers)) (ghost : Ghost workers) :
    Prop where
  distinct : ghost.locks.Nodup
  receive : ∀ client buffer touched, ghost.receive = some (client, buffer, touched) →
    0 < ghost.share client .baton ∧ (view client server).session.mRecvBuffer = buffer ∧
      (view client server).touched = touched
  counting : ∀ client, 0 < ghost.share client .uncounted →
    Lock.mSendBufferLock (.client client) ∈ ghost.locks

/-- The server and what its threads hold agree. -/
structure Guarded (server : State workers × List (Entry workers))
    (ghosts : Thread workers → Ghost workers) : Prop where
  few : ∀ client, Shares.Few (Ghost.share client) ghosts
  owners : ∀ lock thread, server.1.owner lock = some thread ↔ lock ∈ (ghosts thread).locks
  law : ∀ client, Law client (view client server)
    (Shares.total (Ghost.share client) ghosts + (view client server).carried)
  knows : ∀ thread, Knows server (ghosts thread)

variable {server after : State workers × List (Entry workers)}
  {ghosts : Thread workers → Ghost workers} {thread : Thread workers} {next : Ghost workers}

/-- A thread changes what it holds, and the server changes with it. -/
theorem Guarded.change (guarded : Guarded server ghosts)
    (owners : ∀ lock other, after.1.owner lock = some other ↔
      lock ∈ (Function.update ghosts thread next other).locks)
    (law : ∀ client,
      Law client (view client server)
        (Shares.others (Ghost.share client) thread ghosts + (ghosts thread).share client +
          (view client server).carried) →
      Law client (view client after)
        (Shares.others (Ghost.share client) thread ghosts + next.share client +
          (view client after).carried))
    (knows : Knows after next)
    (receives : ∀ client,
      ((view client after).session.mRecvBuffer = (view client server).session.mRecvBuffer ∧
        (view client after).touched = (view client server).touched) ∨
      0 < mayReceive ((ghosts thread).share client + (view client server).carried)) :
    Guarded after (Function.update ghosts thread next) := by
  refine ⟨fun client => (guarded.few client).update thread next, owners, ?_, ?_⟩
  · intro client
    rw [(guarded.few client).total_update]
    apply law
    rw [← (guarded.few client).total_eq]
    exact guarded.law client
  · intro other
    by_cases same : other = thread
    · rw [same, Function.update_self]
      exact knows
    · rw [Function.update_of_ne same]
      have before := guarded.knows other
      refine ⟨before.distinct, ?_, before.counting⟩
      intro client buffer touched known
      rcases before.receive client buffer touched known with ⟨baton, buffer_eq, touched_eq⟩
      rcases receives client with ⟨sameBuffer, sameTouched⟩ | mine
      · exact ⟨baton, sameBuffer.trans buffer_eq, sameTouched.trans touched_eq⟩
      · -- there is one baton, and the other thread has it
        have receiving := (guarded.law client).receiving
        rcases (guarded.few client).exists_others same with ⟨rest, others_eq⟩
        rw [(guarded.few client).total_eq thread, others_eq] at receiving
        simp only [mayReceive, pooled, Pi.add_apply] at receiving mine
        omega

end Guarded

end Gsp.Homework5.Locking.Owners
