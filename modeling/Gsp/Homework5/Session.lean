import Gsp.Homework5.Basic

/-!
# The functions of a session

`Session.cpp`, `ClientSession.cpp`, `ServerSession.cpp`, `OverlappedIOContext.cpp`
and `ReturnClientSession`. Each takes the session it is called on together with
the pool, because releasing the last reference returns a client session, and
stops at the first assertion that fails.

`mRefCount` is a wrapping 32-bit counter; `mSendPendingCount` and the counters of
the pool are on plain integers, which they leave only after `2 ^ 31` or `2 ^ 64`
steps.
-/

namespace Gsp.Homework5

/-- A session, who it is, and the pool. -/
structure SessionScope where
  self : SessionId
  session : SessionState
  manager : ClientSessionManager

namespace SessionState

/-- Notes what has happened. -/
def record (event : Event) (session : SessionState) : SessionState :=
  { session with trace := event :: session.trace }

/-- `ClientSession::SessionReset`; the socket is closed and a new one made. -/
def sessionReset (session : SessionState) : SessionState :=
  { session with
    attached := false
    mConnected := false
    mRefCount := 0
    mRecvBuffer := session.mRecvBuffer.bufferReset
    mSendBuffer := session.mSendBuffer.bufferReset }

/-- A context handed to Winsock. -/
def submit (context : OverlappedIOContext) (session : SessionState) : SessionState :=
  { session with
    inFlight := session.inFlight ++ [context]
    handled := session.handled.erase context }

/-- A completed context comes back from Winsock; a receive has filled its window. -/
def dequeue (context : OverlappedIOContext) (completion : Completion) (session : SessionState) :
    SessionState :=
  { session with
    mRecvBuffer :=
      match context.mIoType, completion.ret, context.mWsaBuf.buf with
      | .ioRecv, true, some start =>
          { session.mRecvBuffer with
            mBuffer := Region.write session.mRecvBuffer.mBuffer start completion.data }
      | _, _, _ => session.mRecvBuffer
    inFlight := session.inFlight.erase context
    handled := context :: session.handled }

/-- What `mRecvBuffer.GetFreeSpaceSize()` leaves behind. -/
def query (session : SessionState) : SessionState :=
  { session with mRecvBuffer := session.mRecvBuffer.getFreeSpaceSize.2 }

/-- `SendCompletion`: what has been sent is removed. -/
def sendCompletion (context : OverlappedIOContext) (transferred : ℕ) (session : SessionState) :
    SessionState :=
  record (.sendCompleted (context.posted.take transferred))
    { session with
      mSendBuffer := session.mSendBuffer.remove transferred
      mSendPendingCount := session.mSendPendingCount - 1 }

/-- `RecvCompletion`: what has come is committed. -/
def recvCompletion (completion : Completion) (session : SessionState) : SessionState :=
  record (.received completion.data)
    { session with mRecvBuffer := session.mRecvBuffer.commit completion.dwTransferred }

/-- `PostSend`, with the queue of the calling thread. -/
def postSend (self : SessionId) (data : List UInt8) (queue : List SendRequest)
    (session : SessionState) : Bool × List SendRequest × SessionState :=
  if session.mConnected = false then (false, queue, session)
  else
    let (free, buffer) := session.mSendBuffer.getFreeSpaceSize
    if free < data.length then (false, queue, { session with mSendBuffer := buffer })
    else
      (true, queue ++ [⟨self, connections session.trace⟩],
        { session with mSendBuffer := (buffer.store data).commit data.length })

/-- `EchoBack`, with the queue of the calling thread. -/
def echoBack (self : SessionId) (queue : List SendRequest) (session : SessionState) :
    List SendRequest × SessionState :=
  let len := session.mRecvBuffer.getContiguiousBytes
  if len = 0 then (queue, session)
  else
    match session.postSend self session.mRecvBuffer.peek queue with
    | (false, queue, session) => (queue, session)
    | (true, queue, session) =>
        (queue, { session with mRecvBuffer := session.mRecvBuffer.remove len })

end SessionState

namespace SessionScope

/-- Changes the session only. -/
def update (scope : SessionScope) (change : SessionState → SessionState) : SessionScope :=
  { scope with session := change scope.session }

/-- `AddRef`; the count wraps, and the assertion fails if it does. -/
def addRef (scope : SessionScope) : Except CrashAssert SessionScope :=
  let mRefCount := Word.wrap32 (scope.session.mRefCount + 1)
  if 0 < mRefCount then .ok (scope.update ({ · with mRefCount := mRefCount }))
  else .error .addRef

/-- `ClientSessionManager::ReturnClientSession`. -/
def returnClientSession (client : ClientId) (scope : SessionScope) :
    Except CrashAssert SessionScope :=
  if scope.session.mConnected = false ∧ scope.session.mRefCount = 0 then
    let session := scope.session.sessionReset
    .ok
      { scope with
        session := session.record (.returned session.toSession)
        manager :=
          { scope.manager with
            mFreeSessionList := client :: scope.manager.mFreeSessionList
            mCurrentReturnCount := scope.manager.mCurrentReturnCount + 1 } }
  else .error .returnClientSession

/-- Only a client session has something to do. -/
def onRelease (scope : SessionScope) : Except CrashAssert SessionScope :=
  match scope.self with
  | .client client => scope.returnClientSession client
  | .server _ => .ok scope

/-- `ReleaseRef`; whoever releases the last reference calls `OnRelease`. -/
def releaseRef (scope : SessionScope) : Except CrashAssert SessionScope :=
  let ret := Word.wrap32 (scope.session.mRefCount - 1)
  let released := scope.update ({ · with mRefCount := ret })
  if ret < 0 then .error .releaseRef
  else if ret = 0 then released.onRelease
  else .ok released

/-- `new`, with the constructor's `AddRef` and the fields set by the caller. -/
def newContext (mIoType : IOType) (mWsaBuf : WsaBuf) (mDisconnectReason : DisconnectReason)
    (posted : List UInt8) (scope : SessionScope) :
    Except CrashAssert (OverlappedIOContext × SessionScope) := do
  let scope ← scope.addRef
  let address := (created scope.session.trace).length
  let context := ⟨address, mIoType, mWsaBuf, mDisconnectReason, posted⟩
  .ok (context, scope.update fun session =>
    { session with
      handled := context :: session.handled
      trace := .contextCreated address mIoType :: session.trace })

/-- `DeleteIoContext`: the reference is released, then the context freed. -/
def deleteIoContext (context : OverlappedIOContext) (scope : SessionScope) :
    Except CrashAssert SessionScope := do
  let scope ← scope.releaseRef
  if context.mIoType = .ioNone then .error .deleteIoContext
  else
    .ok (scope.update fun session =>
      { session with
        handled := session.handled.erase context
        trace := .contextDeleted context.address :: session.trace })

/-- `DisconnectRequest`: the one that finds the session connected posts. -/
def disconnectRequest (dr : DisconnectReason) (winsock : Winsock) (scope : SessionScope) :
    Except CrashAssert SessionScope :=
  if scope.session.mConnected = false then .ok scope
  else do
    let scope := scope.update ({ · with mConnected := false })
    let (context, scope) ← scope.newContext .ioDisconnect ⟨0, none⟩ dr []
    if winsock.disconnectEx then .ok (scope.update (.submit context))
    else
      let scope ← scope.deleteIoContext context
      .ok (scope.update (.record .disconnectExFailed))

/-- `PreRecv`: a receive of no bytes, which tells that some have come. -/
def preRecv (winsock : Winsock) (scope : SessionScope) :
    Except CrashAssert (Bool × SessionScope) :=
  if scope.session.mConnected = false then .ok (false, scope)
  else do
    let (recvContext, scope) ← scope.newContext .ioRecvZero ⟨0, none⟩ .drNone []
    if winsock.wsaRecv then .ok (true, scope.update (.submit recvContext))
    else
      let scope ← scope.deleteIoContext recvContext
      .ok (false, scope)

/-- `PostRecv`: a receive into the free space of the buffer. -/
def postRecv (winsock : Winsock) (scope : SessionScope) :
    Except CrashAssert (Bool × SessionScope) :=
  if scope.session.mConnected = false then .ok (false, scope)
  else
    let free := scope.session.mRecvBuffer.getFreeSpaceSize.1
    let scope := scope.update .query
    if free = 0 then .ok (false, scope)
    else do
      let len := scope.session.mRecvBuffer.getFreeSpaceSize.1
      let scope := scope.update .query
      let (recvContext, scope) ← scope.newContext .ioRecv
        ⟨Word.toUInt32 len, some scope.session.mRecvBuffer.getBuffer⟩ .drNone []
      if winsock.wsaRecv then .ok (true, scope.update (.submit recvContext))
      else
        let scope ← scope.deleteIoContext recvContext
        .ok (false, scope)

/-- `FlushSend`; true if the request for the session may go. -/
def flushSend (winsock : Winsock) (scope : SessionScope) :
    Except CrashAssert (Bool × SessionScope) :=
  if scope.session.mConnected = false then do
    let scope ← scope.disconnectRequest .drSendFlushError winsock
    .ok (true, scope)
  else
    let buffer := scope.session.mSendBuffer
    if buffer.getContiguiousBytes = 0 then .ok (scope.session.mSendPendingCount = 0, scope)
    else if 0 < scope.session.mSendPendingCount then .ok (false, scope)
    else do
      let (sendContext, scope) ← scope.newContext .ioSend
        ⟨Word.toUInt32 buffer.getContiguiousBytes, buffer.getBufferStart⟩ .drNone buffer.peek
      if winsock.wsaSend then
        let scope := scope.update fun session =>
          { session.submit sendContext with
            mSendPendingCount := session.mSendPendingCount + 1 }
        .ok (scope.session.mSendPendingCount = 1, scope)
      else
        let scope ← scope.deleteIoContext sendContext
        let scope ← scope.disconnectRequest .drSendFlushError winsock
        .ok (true, scope)

/-- `DisconnectCompletion`: the reference of the connection goes. -/
def disconnectCompletion (scope : SessionScope) : Except CrashAssert SessionScope :=
  (scope.update (.record .disconnectCompleted)).releaseRef

/-! ## Client sessions -/

/-- `PostAccept`: the `AcceptEx` of a session just taken from the pool. -/
def postAccept (winsock : Winsock) (scope : SessionScope) :
    Except CrashAssert (Bool × SessionScope) := do
  let (acceptContext, scope) ← scope.newContext .ioAccept ⟨0, none⟩ .drNone []
  if winsock.acceptEx then .ok (true, scope.update (.submit acceptContext))
  else
    let scope ← scope.deleteIoContext acceptContext
    .ok (false, scope.update (.record .acceptExFailed))

/-- `AcceptCompletion`: the session is connected before its socket is set up. -/
def acceptCompletion (winsock : Winsock) (scope : SessionScope) :
    Except CrashAssert SessionScope :=
  if scope.session.mConnected then .error .acceptCompletion
  else do
    let scope := scope.update ({ · with mConnected := true })
    let resultOk := winsock.updateAcceptContext && winsock.tcpNoDelay && winsock.soRcvBuf &&
      winsock.getPeerName && winsock.createIoCompletionPort
    if resultOk = false then scope.disconnectRequest .drOnConnectError winsock
    else
      let scope := scope.update ({ · with attached := true })
      let (preRecvOk, scope) ← scope.preRecv winsock
      if preRecvOk then .ok scope
      else .ok (scope.update (.record .acceptPreRecvFailed))

/-! ## Sessions with other servers -/

/-- `ConnectRequest`: the socket is bound and attached before the `ConnectEx`. -/
def connectRequest (winsock : Winsock) (scope : SessionScope) :
    Except CrashAssert (Bool × SessionScope) :=
  if scope.session.mConnected then .error .connectRequest
  else if winsock.bind = false then .ok (false, scope)
  else if winsock.createIoCompletionPort = false then .ok (false, scope)
  else do
    let scope := scope.update ({ · with attached := true })
    let (context, scope) ← scope.newContext .ioConnect ⟨0, none⟩ .drNone []
    if winsock.connectEx then .ok (true, scope.update (.submit context))
    else
      let scope ← scope.deleteIoContext context
      .ok (true, scope)

/-- The session counts as connected only after `PreRecv` has been called. -/
def connectCompletion (winsock : Winsock) (scope : SessionScope) :
    Except CrashAssert SessionScope :=
  if winsock.updateConnectContext = false then .ok scope
  else if winsock.tcpNoDelay = false then .error .connectCompletion
  else if winsock.soRcvBuf = false then .error .connectCompletion
  else do
    let (_, scope) ← scope.preRecv winsock
    if scope.session.mConnected then .error .connectCompletion
    else .ok (scope.update (.record .connectCompleted ∘ ({ · with mConnected := true })))

end SessionScope

end Gsp.Homework5
