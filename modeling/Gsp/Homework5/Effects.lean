import Gsp.CircularBuffer.Invariant
import Gsp.Homework5.WorkerThread

/-!
# The effect of each function

While a session is referenced and its count is far from wrapping, no assertion of
its functions fails and the pool stays as it is until the last reference goes.
Each function then only changes the session, and this file states that change as
a function on session states. `discard` is the deletion of a context at the end
of a handler, which may return a client session to the pool.
-/

namespace Gsp.Homework5

namespace SessionState

/-- The context `new` makes next. -/
def fresh (mIoType : IOType) (mWsaBuf : WsaBuf) (mDisconnectReason : DisconnectReason)
    (posted : List UInt8) (session : SessionState) : OverlappedIOContext :=
  ⟨(created session.trace).length, mIoType, mWsaBuf, mDisconnectReason, posted⟩

/-- A new context in the hands of a function. -/
def hold (context : OverlappedIOContext) (session : SessionState) : SessionState :=
  { session with
    mRefCount := session.mRefCount + 1
    handled := context :: session.handled
    trace := .contextCreated context.address context.mIoType :: session.trace }

/-- A new context accepted by Winsock. -/
def post (context : OverlappedIOContext) (session : SessionState) : SessionState :=
  { session with
    mRefCount := session.mRefCount + 1
    inFlight := session.inFlight ++ [context]
    trace := .contextCreated context.address context.mIoType :: session.trace }

/-- A new context refused by Winsock and deleted on the spot. -/
def abandon (context : OverlappedIOContext) (session : SessionState) : SessionState :=
  { session with
    trace := .contextDeleted context.address ::
      .contextCreated context.address context.mIoType :: session.trace }

/-- A new context, accepted by Winsock or not. -/
def attempt (accepted : Bool) (context : OverlappedIOContext) (session : SessionState) :
    SessionState :=
  if accepted then session.post context else session.abandon context

/-- A deleted context that was not the last reference. -/
def drop (context : OverlappedIOContext) (session : SessionState) : SessionState :=
  { session with
    mRefCount := session.mRefCount - 1
    handled := session.handled.erase context
    trace := .contextDeleted context.address :: session.trace }

/-- A deleted context that was the last reference of a client session. -/
def recycle (context : OverlappedIOContext) (session : SessionState) : SessionState :=
  { session.sessionReset with
    handled := session.handled.erase context
    trace := .contextDeleted context.address ::
      .returned session.sessionReset.toSession :: session.trace }

/-- A deleted context, whether or not it was the last reference. -/
def discard (context : OverlappedIOContext) (session : SessionState) : SessionState :=
  if session.mRefCount = 1 then session.recycle context else session.drop context

/-- What `DisconnectRequest` does. -/
def disconnect (dr : DisconnectReason) (winsock : Winsock) (session : SessionState) :
    SessionState :=
  if session.mConnected = false then session
  else
    let closed := { session with mConnected := false }
    let requested :=
      closed.attempt winsock.disconnectEx (closed.fresh .ioDisconnect ⟨0, none⟩ dr [])
    if winsock.disconnectEx then requested else requested.record .disconnectExFailed

/-- What `PreRecv` returns and does. -/
def preReceive (winsock : Winsock) (session : SessionState) : Bool × SessionState :=
  if session.mConnected = false then (false, session)
  else
    (winsock.wsaRecv,
      session.attempt winsock.wsaRecv (session.fresh .ioRecvZero ⟨0, none⟩ .drNone []))

/-- All the free space at the write position of the receive buffer. -/
def recvWindow (session : SessionState) : WsaBuf :=
  ⟨Word.toUInt32 session.mRecvBuffer.getFreeSpaceSize.1, some session.mRecvBuffer.getBuffer⟩

/-- What `PostRecv` returns and does. -/
def postReceive (winsock : Winsock) (session : SessionState) : Bool × SessionState :=
  if session.mConnected = false then (false, session)
  else if session.mRecvBuffer.getFreeSpaceSize.1 = 0 then (false, session.query)
  else
    (winsock.wsaRecv,
      session.query.attempt winsock.wsaRecv
        (session.query.fresh .ioRecv session.query.recvWindow .drNone []))

/-- The contiguous bytes of the send buffer. -/
def sendWindow (session : SessionState) : WsaBuf :=
  ⟨Word.toUInt32 session.mSendBuffer.getContiguiousBytes, session.mSendBuffer.getBufferStart⟩

/-- What `FlushSend` returns and does. -/
def flush (winsock : Winsock) (session : SessionState) : Bool × SessionState :=
  if session.mConnected = false then (true, session)
  else if session.mSendBuffer.getContiguiousBytes = 0 then
    (session.mSendPendingCount = 0, session)
  else if 0 < session.mSendPendingCount then (false, session)
  else
    let sendContext := session.fresh .ioSend session.sendWindow .drNone session.mSendBuffer.peek
    if winsock.wsaSend then
      (session.mSendPendingCount + 1 = 1,
        { session.post sendContext with mSendPendingCount := session.mSendPendingCount + 1 })
    else (true, (session.abandon sendContext).disconnect .drSendFlushError winsock)

/-- All calls on an accepted socket succeed. -/
def acceptOk (winsock : Winsock) : Bool :=
  winsock.updateAcceptContext && winsock.tcpNoDelay && winsock.soRcvBuf && winsock.getPeerName &&
    winsock.createIoCompletionPort

/-- What `AcceptCompletion` does. -/
def accepted (winsock : Winsock) (session : SessionState) : SessionState :=
  let connected := { session with mConnected := true }
  if acceptOk winsock then
    let attached := { connected with attached := true }
    if winsock.wsaRecv then (attached.preReceive winsock).2
    else (attached.preReceive winsock).2.record .acceptPreRecvFailed
  else connected.disconnect .drOnConnectError winsock

/-- What `DisconnectCompletion` does while other references are held. -/
def disconnected (session : SessionState) : SessionState :=
  { session with
    mRefCount := session.mRefCount - 1
    trace := .disconnectCompleted :: session.trace }

/-- An iteration of the accepting loop on the session it takes. -/
def issue (winsock : Winsock) (session : SessionState) : SessionState :=
  let taken := { session.record .issued with mRefCount := session.mRefCount + 1 }
  let posted := taken.attempt winsock.acceptEx (taken.fresh .ioAccept ⟨0, none⟩ .drNone [])
  if winsock.acceptEx then posted else posted.record .acceptExFailed

/-- The end of `DoIocpJob` before the context is deleted. -/
def close (winsock : Winsock) (result : Bool × SessionState) : SessionState :=
  if result.1 then result.2 else result.2.disconnect .drIoRequestError winsock

/-- The body of `DoIocpJob` for a client session and a context other than a
receive, up to the final `DeleteIoContext`. -/
def handle (context : OverlappedIOContext) (completion : Completion) (winsock : Winsock)
    (session : SessionState) : SessionState :=
  if (completion.ret = false ∨ completion.dwTransferred = 0) ∧
      (context.mIoType = .ioRecv ∨ context.mIoType = .ioSend) then
    (if context.mIoType = .ioSend then session.record .sendFailed else session).disconnect
      .drCompletionError winsock
  else
    match context.mIoType with
    | .ioDisconnect => session.disconnected
    | .ioAccept => session.accepted winsock
    | .ioRecvZero => close winsock (session.postReceive winsock)
    | .ioSend => close winsock
        (context.mWsaBuf.len = completion.dwTransferred,
          session.sendCompletion context completion.dwTransferred)
    | _ => session

/-- The rest of the `IO_RECV` branch, up to the final `DeleteIoContext`. -/
def finish (winsock : Winsock) (session : SessionState) : SessionState :=
  close winsock (session.preReceive winsock)

/-- `EchoBack` does nothing, is refused for lack of space, or moves the
contiguous bytes to the send buffer and queues the session. -/
theorem echoBack_cases (self : SessionId) (queue : List SendRequest) (session : SessionState) :
    session.echoBack self queue = (queue, session) ∨
    session.echoBack self queue =
      (queue, { session with mSendBuffer := session.mSendBuffer.getFreeSpaceSize.2 }) ∨
    (session.mConnected = true ∧
      session.mRecvBuffer.peek.length ≤ session.mSendBuffer.getFreeSpaceSize.1 ∧
      session.echoBack self queue =
        (queue ++ [⟨self, connections session.trace⟩],
          { session with
            mRecvBuffer := session.mRecvBuffer.remove session.mRecvBuffer.getContiguiousBytes
            mSendBuffer := (session.mSendBuffer.getFreeSpaceSize.2.store
              session.mRecvBuffer.peek).commit session.mRecvBuffer.peek.length })) := by
  by_cases empty : session.mRecvBuffer.getContiguiousBytes = 0
  · left
    simp only [echoBack, empty, if_true]
  · cases connected : session.mConnected
    · left
      simp only [echoBack, empty, if_false, postSend, connected, if_true]
    · right
      by_cases full : session.mSendBuffer.getFreeSpaceSize.1 < session.mRecvBuffer.peek.length
      · left
        simp only [echoBack, empty, if_false, postSend, connected, Bool.true_eq_false, full,
          if_true]
      · right
        refine ⟨rfl, Nat.not_lt.mp full, ?_⟩
        simp only [echoBack, empty, if_false, postSend, connected, Bool.true_eq_false, full]

/-- `FlushSend` leaves the session as it is, posts what is contiguous, or gives the
context up and disconnects. -/
theorem flush_cases (winsock : Winsock) (session : SessionState) :
    (session.flush winsock).2 = session ∨
    ∃ context,
      context = session.fresh .ioSend session.sendWindow .drNone session.mSendBuffer.peek ∧
      session.mConnected = true ∧ session.mSendBuffer.getContiguiousBytes ≠ 0 ∧
      session.mSendPendingCount ≤ 0 ∧
      ((session.flush winsock).2 =
          { session.post context with mSendPendingCount := session.mSendPendingCount + 1 } ∨
        (session.flush winsock).2 =
          (session.abandon context).disconnect .drSendFlushError winsock) := by
  simp only [flush]
  split
  · exact Or.inl rfl
  · next connected =>
      split
      · exact Or.inl rfl
      · next nonempty =>
          split
          · exact Or.inl rfl
          · next idle =>
              refine
                Or.inr ⟨_, rfl, eq_true_of_ne_false connected, nonempty, Int.not_lt.mp idle, ?_⟩
              split
              · exact Or.inl rfl
              · exact Or.inr rfl

/-- Referenced, and the count cannot wrap. -/
def Held (session : SessionState) : Prop :=
  0 < session.mRefCount ∧ session.mRefCount < 2 ^ 30

end SessionState

namespace SessionScope

open SessionState

/-- The pool after a handler of a client session has ended. -/
def repool (client : ClientId) (session : SessionState) (manager : ClientSessionManager) :
    ClientSessionManager :=
  if session.mRefCount = 1 then
    { manager with
      mFreeSessionList := client :: manager.mFreeSessionList
      mCurrentReturnCount := manager.mCurrentReturnCount + 1 }
  else manager

variable {self : SessionId} {session : SessionState} {manager : ClientSessionManager}

@[simp]
theorem update_mk (change : SessionState → SessionState) :
    SessionScope.update ⟨self, session, manager⟩ change = ⟨self, change session, manager⟩ := rfl

theorem newContext_eq (lower : 0 ≤ session.mRefCount) (upper : session.mRefCount < 2 ^ 30)
    (mIoType : IOType) (mWsaBuf : WsaBuf) (dr : DisconnectReason) (posted : List UInt8) :
    newContext mIoType mWsaBuf dr posted ⟨self, session, manager⟩ =
      .ok (session.fresh mIoType mWsaBuf dr posted,
        ⟨self, session.hold (session.fresh mIoType mWsaBuf dr posted), manager⟩) := by
  have exactly : Word.wrap32 (session.mRefCount + 1) = session.mRefCount + 1 :=
    Word.wrap32_eq (by omega) (by omega)
  have positive : 0 < session.mRefCount + 1 := by omega
  simp only [newContext, addRef, exactly, positive, if_true, Except.ok_bind]
  rfl

/-- A referenced session can make a context. -/
theorem newContext_held (held : session.Held) (mIoType : IOType) (mWsaBuf : WsaBuf)
    (dr : DisconnectReason) (posted : List UInt8) :
    newContext mIoType mWsaBuf dr posted ⟨self, session, manager⟩ =
      .ok (session.fresh mIoType mWsaBuf dr posted,
        ⟨self, session.hold (session.fresh mIoType mWsaBuf dr posted), manager⟩) :=
  newContext_eq (Int.le_of_lt held.1) held.2 mIoType mWsaBuf dr posted

/-- A reference that is not the last one only counts. -/
theorem releaseRef_eq (more : 1 < session.mRefCount) (upper : session.mRefCount ≤ 2 ^ 30) :
    releaseRef ⟨self, session, manager⟩ =
      .ok ⟨self, { session with mRefCount := session.mRefCount - 1 }, manager⟩ := by
  have exactly : Word.wrap32 (session.mRefCount - 1) = session.mRefCount - 1 :=
    Word.wrap32_eq (by omega) (by omega)
  have notNegative : ¬session.mRefCount - 1 < 0 := by omega
  have notZero : session.mRefCount - 1 ≠ 0 := by omega
  simp only [releaseRef, exactly, notNegative, notZero, if_false, update_mk]

/-- The last reference returns a client session. -/
theorem releaseRef_last {client : ClientId} (only : session.mRefCount = 1)
    (closed : session.mConnected = false) :
    releaseRef ⟨.client client, session, manager⟩ =
      .ok ⟨.client client, session.sessionReset.record (.returned session.sessionReset.toSession),
        repool client session manager⟩ := by
  have zero : Word.wrap32 (1 - 1) = 0 := by decide
  have notNegative : ¬(0 : ℤ) < 0 := by decide
  simp only [releaseRef, only, zero, notNegative, if_false, if_true, update_mk, onRelease,
    returnClientSession, closed, and_self, repool]
  rfl

/-- A new context that Winsock refuses. -/
theorem deleteIoContext_hold (held : session.Held) {context : OverlappedIOContext}
    (known : context.mIoType ≠ .ioNone) :
    deleteIoContext context ⟨self, session.hold context, manager⟩ =
      .ok ⟨self, session.abandon context, manager⟩ := by
  rcases held with ⟨positive, upper⟩
  have more : 1 < (session.hold context).mRefCount := by
    simp only [hold]
    omega
  have small : (session.hold context).mRefCount ≤ 2 ^ 30 := by
    simp only [hold]
    omega
  simp only [deleteIoContext, releaseRef_eq more small, Except.ok_bind, known, if_false, update_mk]
  simp [hold, abandon]

theorem deleteIoContext_fresh (held : session.Held) {mIoType : IOType} (known : mIoType ≠ .ioNone)
    (mWsaBuf : WsaBuf) (dr : DisconnectReason) (posted : List UInt8) :
    deleteIoContext (session.fresh mIoType mWsaBuf dr posted)
        ⟨self, session.hold (session.fresh mIoType mWsaBuf dr posted), manager⟩ =
      .ok ⟨self, session.abandon (session.fresh mIoType mWsaBuf dr posted), manager⟩ :=
  deleteIoContext_hold held known

/-- The end of a handler. -/
theorem deleteIoContext_client {client : ClientId} (held : session.Held)
    (last : session.mRefCount = 1 → session.mConnected = false) {context : OverlappedIOContext}
    (known : context.mIoType ≠ .ioNone) :
    deleteIoContext context ⟨.client client, session, manager⟩ =
      .ok ⟨.client client, session.discard context, repool client session manager⟩ := by
  by_cases only : session.mRefCount = 1
  · simp only [deleteIoContext, releaseRef_last only (last only), Except.ok_bind, known, if_false,
      update_mk, SessionState.discard, only, if_true]
    rfl
  · have more : 1 < session.mRefCount := by
      have positive := held.1
      omega
    simp only [deleteIoContext, releaseRef_eq more (Int.le_of_lt held.2), Except.ok_bind, known,
      if_false, update_mk, SessionState.discard, repool, only]
    rfl

/-- A context that Winsock accepts. -/
theorem submit_hold (context : OverlappedIOContext) :
    (session.hold context).submit context = session.post context := by
  simp [hold, submit, post]

theorem disconnectRequest_eq (held : session.Held) (dr : DisconnectReason) (winsock : Winsock) :
    disconnectRequest dr winsock ⟨self, session, manager⟩ =
      .ok ⟨self, session.disconnect dr winsock, manager⟩ := by
  by_cases closed : session.mConnected = false
  · simp only [disconnectRequest, closed, if_true, SessionState.disconnect]
  · have heldClosed : SessionState.Held { session with mConnected := false } := held
    simp only [disconnectRequest, closed, Bool.true_eq_false, if_false, update_mk,
      newContext_held heldClosed,
      Except.ok_bind, SessionState.disconnect, attempt]
    cases winsock.disconnectEx
    · simp (disch := decide) only [deleteIoContext_fresh heldClosed, Except.ok_bind, update_mk,
        Bool.false_eq_true, if_false]
    · simp only [submit_hold, if_true]

theorem preRecv_eq (held : session.Held) (winsock : Winsock) :
    preRecv winsock ⟨self, session, manager⟩ =
      .ok ((session.preReceive winsock).1, ⟨self, (session.preReceive winsock).2, manager⟩) := by
  by_cases closed : session.mConnected = false
  · simp only [preRecv, closed, if_true, preReceive]
  · simp only [preRecv, closed, Bool.true_eq_false, if_false, newContext_held held, Except.ok_bind,
      preReceive, attempt, update_mk]
    cases winsock.wsaRecv
    · simp (disch := decide) only [deleteIoContext_fresh held, Except.ok_bind, Bool.false_eq_true,
        if_false]
    · simp only [submit_hold, if_true]

theorem postRecv_eq (held : session.Held) (wellFormed : session.mRecvBuffer.WellFormed)
    (winsock : Winsock) :
    postRecv winsock ⟨self, session, manager⟩ =
      .ok ((session.postReceive winsock).1, ⟨self, (session.postReceive winsock).2, manager⟩) := by
  have again : session.mRecvBuffer.getFreeSpaceSize.2.getFreeSpaceSize =
      session.mRecvBuffer.getFreeSpaceSize := wellFormed.offered_getFreeSpaceSize
  have unchanged : session.query.query = session.query := by
    simp only [query, again]
  by_cases closed : session.mConnected = false
  · simp only [postRecv, closed, if_true, postReceive]
  · by_cases full : session.mRecvBuffer.getFreeSpaceSize.1 = 0
    · simp only [postRecv, closed, Bool.true_eq_false, full, if_true, if_false, postReceive,
        update_mk]
    · have heldQuery : session.query.Held := held
      simp only [postRecv, closed, Bool.true_eq_false, full, if_false, update_mk, unchanged,
        newContext_held heldQuery, Except.ok_bind, postReceive, attempt, recvWindow]
      cases winsock.wsaRecv
      · simp (disch := decide) only [deleteIoContext_fresh heldQuery, Except.ok_bind,
          Bool.false_eq_true, if_false]
      · simp only [submit_hold, if_true]

/-- `FlushSend` on a session that is held while connected. -/
theorem flushSend_eq (held : session.mConnected = true → session.Held) (winsock : Winsock) :
    flushSend winsock ⟨self, session, manager⟩ =
      .ok ((session.flush winsock).1, ⟨self, (session.flush winsock).2, manager⟩) := by
  by_cases closed : session.mConnected = false
  · simp only [flushSend, closed, if_true, disconnectRequest, Except.ok_bind, flush]
  · have heldSession := held (by simpa using closed)
    by_cases empty : session.mSendBuffer.getContiguiousBytes = 0
    · simp only [flushSend, closed, Bool.true_eq_false, empty, if_true, if_false, flush]
    · by_cases pending : 0 < session.mSendPendingCount
      · simp only [flushSend, closed, Bool.true_eq_false, empty, pending, if_true, if_false, flush]
      · simp only [flushSend, closed, Bool.true_eq_false, empty, pending, if_false,
          newContext_held heldSession, Except.ok_bind, flush, sendWindow]
        cases winsock.wsaSend
        · have heldAbandon (context : OverlappedIOContext) : (session.abandon context).Held :=
            heldSession
          simp (disch := decide) only [deleteIoContext_fresh heldSession, Except.ok_bind,
            disconnectRequest_eq (heldAbandon _), Bool.false_eq_true, if_false]
        · simp only [if_true, update_mk, submit_hold]
          rfl

theorem disconnectCompletion_eq (more : 1 < session.mRefCount)
    (upper : session.mRefCount ≤ 2 ^ 30) :
    disconnectCompletion ⟨self, session, manager⟩ = .ok ⟨self, session.disconnected, manager⟩ :=
  @releaseRef_eq self (session.record .disconnectCompleted) manager more upper

theorem acceptCompletion_eq (held : session.Held) (closed : session.mConnected = false)
    (winsock : Winsock) :
    acceptCompletion winsock ⟨self, session, manager⟩ =
      .ok ⟨self, session.accepted winsock, manager⟩ := by
  have heldConnected : SessionState.Held { session with mConnected := true } := held
  cases setUp : acceptOk winsock
  · have result := setUp
    simp only [acceptOk] at result
    simp only [acceptCompletion, closed, Bool.false_eq_true, if_false, result, if_true, update_mk,
      disconnectRequest_eq heldConnected, accepted, setUp]
  · have result := setUp
    simp only [acceptOk] at result
    have heldAttached :
        SessionState.Held { session with mConnected := true, attached := true } := held
    simp only [acceptCompletion, closed, Bool.false_eq_true, if_false, result, update_mk,
      Bool.true_eq_false, preRecv_eq heldAttached, Except.ok_bind, accepted, setUp, if_true,
      preReceive]
    cases winsock.wsaRecv
    · simp only [Bool.false_eq_true, if_false]
    · simp only [if_true]

theorem postAccept_eq (held : session.Held) (winsock : Winsock) :
    postAccept winsock ⟨self, session, manager⟩ =
      .ok (winsock.acceptEx, ⟨self,
        if winsock.acceptEx then
          session.attempt winsock.acceptEx (session.fresh .ioAccept ⟨0, none⟩ .drNone [])
        else
          (session.attempt winsock.acceptEx
            (session.fresh .ioAccept ⟨0, none⟩ .drNone [])).record .acceptExFailed, manager⟩) := by
  simp only [postAccept, newContext_held held, Except.ok_bind, update_mk, attempt]
  cases winsock.acceptEx
  · simp (disch := decide) only [deleteIoContext_fresh held, Except.ok_bind, Bool.false_eq_true,
      if_false, update_mk]
  · simp only [submit_hold, if_true]

theorem issue_eq (free : session.mRefCount = 0) (winsock : Winsock) :
    (addRef ⟨self, session.record .issued, manager⟩ >>= postAccept winsock) =
      .ok (winsock.acceptEx, ⟨self, session.issue winsock, manager⟩) := by
  have one : Word.wrap32 (0 + 1) = 0 + 1 := by decide
  have positive : (0 : ℤ) < 0 + 1 := by decide
  have held : SessionState.Held { session.record .issued with mRefCount := 0 + 1 } :=
    ⟨positive, by simp⟩
  simp only [addRef, record, free, one, positive, if_true, update_mk, Except.ok_bind]
  simp only [record] at held
  rw [postAccept_eq held]
  simp only [issue, record, free]

/-- A handler ends with its context discarded. -/
theorem closeJob_eq {client : ClientId} (result : Bool × SessionState)
    (held : result.1 = false → result.2.Held) {context : OverlappedIOContext}
    (known : context.mIoType ≠ .ioNone) {winsock : Winsock}
    (heldAfter : (close winsock result).Held)
    (last : (close winsock result).mRefCount = 1 → (close winsock result).mConnected = false) :
    closeJob result.1 context winsock ⟨.client client, result.2, manager⟩ =
      .ok ⟨.client client, (close winsock result).discard context,
        repool client (close winsock result) manager⟩ := by
  rcases result with ⟨completionOk, closing⟩
  cases completionOk
  · simp only [closeJob, Bool.false_eq_true, if_false, disconnectRequest_eq (held rfl),
      Except.ok_bind]
    exact deleteIoContext_client heldAfter last known
  · simp only [closeJob, if_true]
    exact deleteIoContext_client heldAfter last known

theorem mRefCount_preReceive {winsock : Winsock} (failed : (session.preReceive winsock).1 = false) :
    (session.preReceive winsock).2.mRefCount = session.mRefCount := by
  simp only [preReceive] at failed ⊢
  split at failed
  · next closed => simp only [closed, if_true]
  · next connected =>
      simp only at failed
      simp [connected, attempt, failed, abandon]

theorem mRefCount_postReceive {winsock : Winsock}
    (failed : (session.postReceive winsock).1 = false) :
    (session.postReceive winsock).2.mRefCount = session.mRefCount := by
  simp only [postReceive] at failed ⊢
  split
  · rfl
  · next connected =>
      split
      · rfl
      · next room =>
          simp only [connected, Bool.true_eq_false, room, if_false] at failed
          simp [attempt, failed, abandon, query]

theorem finishRecv_eq {client : ClientId} (held : session.Held) {context : OverlappedIOContext}
    (known : context.mIoType ≠ .ioNone) {winsock : Winsock}
    (heldAfter : (session.finish winsock).Held)
    (last : (session.finish winsock).mRefCount = 1 →
      (session.finish winsock).mConnected = false) :
    finishRecv context winsock ⟨.client client, session, manager⟩ =
      .ok ⟨.client client, (session.finish winsock).discard context,
        repool client (session.finish winsock) manager⟩ := by
  simp only [finishRecv, preRecv_eq held, Except.ok_bind]
  apply closeJob_eq (session.preReceive winsock) _ known heldAfter last
  intro failed
  simpa only [Held, mRefCount_preReceive failed] using held

theorem failJob_eq {client : ClientId} (held : session.Held) {context : OverlappedIOContext}
    (known : context.mIoType ≠ .ioNone) {completion : Completion} {winsock : Winsock}
    (failed : (completion.ret = false ∨ completion.dwTransferred = 0) ∧
      (context.mIoType = .ioRecv ∨ context.mIoType = .ioSend))
    (heldAfter : (session.handle context completion winsock).Held)
    (last : (session.handle context completion winsock).mRefCount = 1 →
      (session.handle context completion winsock).mConnected = false) :
    failJob context winsock ⟨.client client, session, manager⟩ =
      .ok ⟨.client client, (session.handle context completion winsock).discard context,
        repool client (session.handle context completion winsock) manager⟩ := by
  simp only [handle, if_pos failed] at heldAfter last ⊢
  by_cases isSend : context.mIoType = .ioSend
  · have heldRecord : (session.record .sendFailed).Held := held
    simp only [isSend, if_true] at heldAfter last ⊢
    simp only [failJob, isSend, if_true, update_mk, disconnectRequest_eq heldRecord, Except.ok_bind]
    exact deleteIoContext_client heldAfter last known
  · simp only [isSend, if_false] at heldAfter last ⊢
    simp only [failJob, isSend, if_false, disconnectRequest_eq held, Except.ok_bind]
    exact deleteIoContext_client heldAfter last known

/-- `DoIocpJob` on a context of a client session, receives that succeed apart. -/
theorem doIocpJob_eq {client : ClientId} (held : session.Held)
    (wellFormed : session.mRecvBuffer.WellFormed) {context : OverlappedIOContext}
    {completion : Completion} {winsock : Winsock}
    (known : context.mIoType ≠ .ioNone ∧ context.mIoType ≠ .ioConnect)
    (notReceived : context.mIoType = .ioRecv →
      completion.ret = false ∨ completion.dwTransferred = 0)
    (accepting : context.mIoType = .ioAccept → session.mConnected = false)
    (closing : context.mIoType = .ioDisconnect → 1 < session.mRefCount)
    (heldAfter : (session.handle context completion winsock).Held)
    (last : (session.handle context completion winsock).mRefCount = 1 →
      (session.handle context completion winsock).mConnected = false) :
    doIocpJob context completion winsock ⟨.client client, session, manager⟩ =
      .ok (.idle, ⟨.client client, (session.handle context completion winsock).discard context,
        repool client (session.handle context completion winsock) manager⟩) := by
  by_cases failed : (completion.ret = false ∨ completion.dwTransferred = 0) ∧
      (context.mIoType = .ioRecv ∨ context.mIoType = .ioSend)
  · rw [doIocpJob, if_pos failed, failJob_eq held known.1 failed heldAfter last, Except.ok_bind]
  · simp only [handle, if_neg failed] at heldAfter last ⊢
    rw [doIocpJob, if_neg failed]
    cases kind : context.mIoType with
    | ioNone => exact absurd kind known.1
    | ioConnect => exact absurd kind known.2
    | ioRecv => exact absurd ⟨notReceived kind, Or.inl kind⟩ failed
    | ioDisconnect =>
        simp only [kind] at heldAfter last
        simp only [disconnectCompletion_eq (closing kind) (Int.le_of_lt held.2), Except.ok_bind,
          closeJob, if_true]
        rw [deleteIoContext_client heldAfter last known.1]
        rfl
    | ioAccept =>
        simp only [kind] at heldAfter last
        simp only [acceptCompletion_eq held (accepting kind), Except.ok_bind, closeJob, if_true]
        rw [deleteIoContext_client heldAfter last known.1]
        rfl
    | ioRecvZero =>
        simp only [kind] at heldAfter last
        simp only [postRecv_eq held wellFormed, Except.ok_bind]
        rw [closeJob_eq (session.postReceive winsock) _ known.1 heldAfter last]
        · rfl
        · intro refused
          simpa only [Held, mRefCount_postReceive refused] using held
    | ioSend =>
        simp only [kind] at heldAfter last
        simp only [update_mk]
        rw [closeJob_eq (_, session.sendCompletion context completion.dwTransferred) (fun _ => held)
          known.1 heldAfter last]
        rfl

end SessionScope

end Gsp.Homework5
