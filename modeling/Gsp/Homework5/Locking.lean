import Gsp.CircularBuffer.Calls
import Gsp.Homework5.WorkerThread
import Gsp.Lib.Threads

/-!
# The locks of the server

`Session.cpp`, `ClientSession.cpp`, `ServerSession.cpp`, `ClientSessionManager.cpp`,
`OverlappedIOContext.cpp` and `WorkerThread.cpp` once more, now cut into operations
between which other threads may act: taking or leaving a lock, an interlocked access,
a call on a buffer, a Winsock call.

`mRefCount`, `mSendPendingCount` and the counters of the manager are on plain
integers. Sockets, addresses, log texts and disconnect reasons decide nothing; a
Winsock call is represented by whether it succeeds or stays pending.
-/

namespace Gsp.Homework5.Locking

/-- `ClientSessionManager::mLock`, that of a session's send buffer, and that of the
pool of a context type. -/
inductive Lock where
  | mLock
  | mSendBufferLock (session : SessionId)
  | classLock (mIoType : IOType)
deriving DecidableEq

/-- An overlapped call: its session, its type and its window. -/
structure Context where
  mSessionObject : SessionId
  mIoType : IOType
  mWsaBuf : WsaBuf
deriving DecidableEq

/-- The calls that prepare a socket. -/
inductive SetUp where
  | soUpdateAcceptContext
  | soUpdateConnectContext
  | tcpNoDelay
  | soRcvBuf
  | getPeerName
  | createIoCompletionPort
  | bind
deriving DecidableEq

/-- What `GetQueuedCompletionStatus` returns with a context. -/
structure Packet where
  context : Context
  ret : Bool
  dwTransferred : ℕ

/-- What a thread does in one step. -/
inductive Operation where
  | enterLock (lock : Lock)
  | leaveLock (lock : Lock)
  | isConnected (session : SessionId)
  | exchangeConnected (session : SessionId) (connected : Bool)
  | storeConnected (session : SessionId)
  | loadRefCount (session : SessionId)
  | incrementRefCount (session : SessionId)
  | decrementRefCount (session : SessionId)
  | storeRefCount (session : SessionId)
  | loadSendPendingCount (session : SessionId)
  | addSendPendingCount (session : SessionId) (change : ℤ)
  | recvBuffer (session : SessionId) (call : BufferCall)
  | sendBuffer (session : SessionId) (call : BufferCall)
  | memcpy (session : SessionId) (dest : ℕ) (source : Option ℕ) (len : ℕ)
  | pushSendRequest (session : SessionId)
  | frontSendRequest
  | popSendRequest
  | submit (context : Context)
  | setUp (call : SetUp)
  | getQueuedCompletionStatus
  | belowMaxConnection
  | popFreeSession
  | pushFreeSession (client : ClientId)
  | countIssue
  | countReturn
  | crash
deriving DecidableEq

/-- What an operation returns. -/
def Operation.Result : Operation → Type
  | .isConnected _ | .exchangeConnected _ _ | .submit _ | .setUp _ | .belowMaxConnection => Bool
  | .loadRefCount _ | .incrementRefCount _ | .decrementRefCount _ | .loadSendPendingCount _ => ℤ
  | .recvBuffer _ call | .sendBuffer _ call => call.Result
  | .frontSendRequest => Option SessionId
  | .getQueuedCompletionStatus => Option Packet
  | .popFreeSession => ClientId
  | .crash => Empty
  | _ => Unit

/-- Code of the server. -/
abbrev Task : Type → Type := Code Operation Operation.Result

/-! ## The operations as code -/

/-- The code of one operation. -/
def act (operation : Operation) : Task operation.Result := .perform operation

/-- `EnterLock`. -/
def enterLock (lock : Lock) : Task Unit := act (.enterLock lock)

/-- `LeaveLock`. -/
def leaveLock (lock : Lock) : Task Unit := act (.leaveLock lock)

/-- Hands a context to Winsock; false if Winsock refuses it. -/
def submit (context : Context) : Task Bool := act (.submit context)

/-- A call on the socket; false if it fails. -/
def setUp (call : SetUp) : Task Bool := act (.setUp call)

/-- A failed assertion; nothing comes after it. -/
def crash {Value : Type} : Task Value := .call .crash Empty.elim

/-- `CRASH_ASSERT`. -/
def crashAssert (condition : Bool) : Task Unit :=
  if condition then pure () else crash

/-- `FastSpinlockGuard` or `LockGuard` around a block. -/
def guarded {Value : Type} (lock : Lock) (block : Task Value) : Task Value := do
  enterLock lock
  let value ← block
  leaveLock lock
  return value

/-- `IsConnected`, which reads `mConnected`. -/
def isConnected (session : SessionId) : Task Bool := act (.isConnected session)

/-- `InterlockedExchange` on `mConnected`; returns what was there. -/
def exchangeConnected (session : SessionId) (connected : Bool) : Task Bool :=
  act (.exchangeConnected session connected)

/-- `mConnected = 0`. -/
def storeConnected (session : SessionId) : Task Unit := act (.storeConnected session)

/-- Reads `mRefCount`. -/
def loadRefCount (session : SessionId) : Task ℤ := act (.loadRefCount session)

/-- `InterlockedIncrement` of `mRefCount`. -/
def incrementRefCount (session : SessionId) : Task ℤ := act (.incrementRefCount session)

/-- `InterlockedDecrement` of `mRefCount`. -/
def decrementRefCount (session : SessionId) : Task ℤ := act (.decrementRefCount session)

/-- `mRefCount = 0`. -/
def storeRefCount (session : SessionId) : Task Unit := act (.storeRefCount session)

/-- Reads `mSendPendingCount`. -/
def loadSendPendingCount (session : SessionId) : Task ℤ := act (.loadSendPendingCount session)

/-- Adds to `mSendPendingCount`. -/
def addSendPendingCount (session : SessionId) (change : ℤ) : Task Unit :=
  act (.addSendPendingCount session change)

/-- A call on `mRecvBuffer`. -/
def recvBuffer (session : SessionId) (call : BufferCall) : Task call.Result :=
  act (.recvBuffer session call)

/-- A call on `mSendBuffer`. -/
def sendBuffer (session : SessionId) (call : BufferCall) : Task call.Result :=
  act (.sendBuffer session call)

/-! ## References and contexts -/

/-- `AddRef`. -/
def addRef (session : SessionId) : Task Unit := do
  let count ← incrementRefCount session
  crashAssert (0 < count)

/-- `ClientSession::SessionReset`. -/
def sessionReset (client : ClientId) : Task Unit := do
  storeConnected (.client client)
  storeRefCount (.client client)
  recvBuffer (.client client) .bufferReset
  enterLock (.mSendBufferLock (.client client))
  sendBuffer (.client client) .bufferReset
  leaveLock (.mSendBufferLock (.client client))

/-- `ClientSessionManager::ReturnClientSession`. -/
def returnClientSession (client : ClientId) : Task Unit :=
  guarded .mLock do
    let connected ← isConnected (.client client)
    let count ← loadRefCount (.client client)
    crashAssert (!connected && count = 0)
    sessionReset client
    act (.pushFreeSession client)
    act .countReturn

/-- Only a client session has something to do. -/
def onRelease : SessionId → Task Unit
  | .client client => returnClientSession client
  | .server _ => return ()

/-- `ReleaseRef`; whoever releases the last reference calls `OnRelease`. -/
def releaseRef (session : SessionId) : Task Unit := do
  let ret ← decrementRefCount session
  crashAssert (0 ≤ ret)
  if ret = 0 then onRelease session

/-- `new` from the pool of the type, with the constructor's `AddRef`. -/
def newContext (session : SessionId) (mIoType : IOType) : Task Context := do
  guarded (.classLock mIoType) (pure ())
  addRef session
  return ⟨session, mIoType, ⟨0, none⟩⟩

/-- `DeleteIoContext`: the reference is released, then the context freed. -/
def deleteIoContext (context : Context) : Task Unit := do
  releaseRef context.mSessionObject
  if context.mIoType = .ioNone then crash
  else guarded (.classLock context.mIoType) (pure ())

/-- Hands the context to Winsock; if that fails it is deleted. -/
def post (context : Context) : Task Bool := do
  let posted ← submit context
  if posted then return true
  else do
    deleteIoContext context
    return false

/-! ## Sending and receiving -/

/-- `DisconnectRequest`: the one that finds the session connected posts. -/
def disconnectRequest (session : SessionId) : Task Unit := do
  let connected ← exchangeConnected session false
  if connected then do
    let context ← newContext session .ioDisconnect
    let _ ← post context

/-- `DisconnectCompletion`: the reference of the connection goes. -/
def disconnectCompletion (session : SessionId) : Task Unit :=
  releaseRef session

/-- `PreRecv`: a receive of no bytes, which tells that some have come. -/
def preRecv (session : SessionId) : Task Bool := do
  let connected ← isConnected session
  if connected then do
    let recvContext ← newContext session .ioRecvZero
    post recvContext
  else return false

/-- `PostRecv`: a receive into the free space of the buffer. -/
def postRecv (session : SessionId) : Task Bool := do
  let connected ← isConnected session
  if connected then do
    let free : ℕ ← recvBuffer session .getFreeSpaceSize
    if free = 0 then return false
    else do
      let recvContext ← newContext session .ioRecv
      let len : ℕ ← recvBuffer session .getFreeSpaceSize
      let buf : ℕ ← recvBuffer session .getBuffer
      post { recvContext with mWsaBuf := ⟨Word.toUInt32 len, some buf⟩ }
  else return false

/-- `RecvCompletion`: what has come is committed. -/
def recvCompletion (session : SessionId) (transferred : ℕ) : Task Unit :=
  recvBuffer session (.commit transferred)

/-- `PostSend` of bytes of the receive buffer. -/
def postSend (session : SessionId) (data : Option ℕ) (len : ℕ) : Task Bool := do
  let connected ← isConnected session
  if connected then
    guarded (.mSendBufferLock session) do
      let free : ℕ ← sendBuffer session .getFreeSpaceSize
      if free < len then return false
      else do
        act (.pushSendRequest session)
        let destData : ℕ ← sendBuffer session .getBuffer
        act (.memcpy session destData data len)
        sendBuffer session (.commit len)
        return true
  else return false

/-- `EchoBack`: what is contiguous in the receive buffer is sent back. -/
def echoBack (session : SessionId) : Task Unit := do
  let len : ℕ ← recvBuffer session .getContiguiousBytes
  if len = 0 then return ()
  else do
    let start : Option ℕ ← recvBuffer session .getBufferStart
    let sent ← postSend session start len
    if sent then recvBuffer session (.remove len) else return ()

/-- `FlushSend`; true if the request for the session may go. -/
def flushSend (session : SessionId) : Task Bool := do
  let connected ← isConnected session
  if connected then
    guarded (.mSendBufferLock session) do
      let contiguious : ℕ ← sendBuffer session .getContiguiousBytes
      let pending ← loadSendPendingCount session
      if contiguious = 0 then return pending = 0
      else if 0 < pending then return false
      else do
        let sendContext ← newContext session .ioSend
        let len : ℕ ← sendBuffer session .getContiguiousBytes
        let buf : Option ℕ ← sendBuffer session .getBufferStart
        let posted ← post { sendContext with mWsaBuf := ⟨Word.toUInt32 len, buf⟩ }
        if posted then do
          addSendPendingCount session 1
          let pending ← loadSendPendingCount session
          return pending = 1
        else do
          disconnectRequest session
          return true
  else do
    disconnectRequest session
    return true

/-- `SendCompletion`: what has been sent is removed. -/
def sendCompletion (session : SessionId) (transferred : ℕ) : Task Unit :=
  guarded (.mSendBufferLock session) do
    sendBuffer session (.remove transferred)
    addSendPendingCount session (-1)

/-! ## Connecting -/

/-- The calls up to the first that fails. -/
def setUpSocket : List SetUp → Task Bool
  | [] => return true
  | call :: calls => do
      let resultOk ← setUp call
      if resultOk then setUpSocket calls else return false

/-- `PostAccept`: the `AcceptEx` of a session just taken from the pool. -/
def postAccept (client : ClientId) : Task Bool := do
  let acceptContext ← newContext (.client client) .ioAccept
  post acceptContext

/-- `AcceptCompletion`: the session is connected before its socket is set up. -/
def acceptCompletion (client : ClientId) : Task Unit := do
  let connected ← exchangeConnected (.client client) true
  if connected then crash
  else do
    let resultOk ← setUpSocket
      [.soUpdateAcceptContext, .tcpNoDelay, .soRcvBuf, .getPeerName, .createIoCompletionPort]
    if resultOk then do
      let _ ← preRecv (.client client)
    else disconnectRequest (.client client)

/-- `ConnectRequest`. -/
def connectRequest (index : ℕ) : Task Bool := do
  let connected ← isConnected (.server index)
  if connected then crash
  else do
    let resultOk ← setUpSocket [.bind, .createIoCompletionPort]
    if resultOk then do
      let context ← newContext (.server index) .ioConnect
      let _ ← post context
      return true
    else return false

/-- The session counts as connected only after `PreRecv` has been called. -/
def connectCompletion (index : ℕ) : Task Unit := do
  let updated ← setUp .soUpdateConnectContext
  if updated then do
    let resultOk ← setUpSocket [.tcpNoDelay, .soRcvBuf]
    if resultOk then do
      let _ ← preRecv (.server index)
      let connected ← exchangeConnected (.server index) true
      crashAssert (!connected)
    else crash
  else return ()

/-! ## The threads -/

/-- The main thread accepts; nothing in the server calls `ConnectRequest`, here every
session with another server has a thread that may. -/
inductive Thread (workers : ℕ) where
  | main
  | connecting (index : ℕ)
  | worker (index : Fin workers)
deriving DecidableEq

/-- Where a thread is in its loop; the main thread inside `AcceptClientSessions` is
`accepting` and holds `mLock`. -/
inductive Mode where
  | iocpJob
  | sendJob
  | accept
  | accepting
  | connect
  | stopped
deriving DecidableEq

/-- The dispatch on `mIoType`; a failed `dynamic_cast` ends in a null pointer. -/
def dispatch (session : SessionId) (context : Context) (dwTransferred : ℕ) : Task Bool :=
  match context.mIoType, session with
  | .ioConnect, .server index => do
      connectCompletion index
      return true
  | .ioDisconnect, _ => do
      disconnectCompletion session
      return true
  | .ioAccept, .client client => do
      acceptCompletion client
      return true
  | .ioRecvZero, _ => postRecv session
  | .ioSend, _ => do
      sendCompletion session dwTransferred
      return context.mWsaBuf.len = dwTransferred
  | .ioRecv, _ => do
      recvCompletion session dwTransferred
      echoBack session
      preRecv session
  | _, _ => crash

/-- A context is closed and deleted. -/
def closeJob (session : SessionId) (context : Context) (completionOk : Bool) : Task Mode := do
  if completionOk = false then disconnectRequest session
  deleteIoContext context
  return .sendJob

/-- `DoIocpJob`. -/
def doIocpJob : Task Mode := do
  let packet : Option Packet ← act .getQueuedCompletionStatus
  match packet with
  | none => return .sendJob
  | some ⟨context, ret, dwTransferred⟩ =>
      if (ret = false ∨ dwTransferred = 0) ∧
          (context.mIoType = .ioRecv ∨ context.mIoType = .ioSend) then
        closeJob context.mSessionObject context false
      else do
        let completionOk ← dispatch context.mSessionObject context dwTransferred
        closeJob context.mSessionObject context completionOk

/-- One iteration of the loop of `DoSendJob`, or what follows it. -/
def doSendJob : Task Mode := do
  let front : Option SessionId ← act .frontSendRequest
  match front with
  | none => return .iocpJob
  | some session => do
      let flushed ← flushSend session
      if flushed then act .popSendRequest
      return .sendJob

/-- `AcceptClientSessions` up to its loop. -/
def acceptClientSessions : Task Mode := do
  enterLock .mLock
  return .accepting

/-- One iteration of the loop of `AcceptClientSessions`, or what follows it. -/
def acceptClientSession : Task Mode := do
  let below : Bool ← act .belowMaxConnection
  if below then do
    let newClient : ClientId ← act .popFreeSession
    act .countIssue
    addRef (.client newClient)
    let posted ← postAccept newClient
    if posted then return .accepting
    else do
      leaveLock .mLock
      return .stopped
  else do
    leaveLock .mLock
    return .accept

/-- What a thread runs in a mode. -/
def body {workers : ℕ} : Thread workers → Mode → Task Mode
  | .worker _, .sendJob => doSendJob
  | .worker _, _ => doIocpJob
  | .main, .accept => acceptClientSessions
  | .main, .accepting => acceptClientSession
  | .main, mode => return mode
  | .connecting index, mode => do
      let _ ← connectRequest index
      return mode

/-! ## The server -/

/-- What the threads share, with the owner of each lock and the queue of each worker. -/
structure State (workers : ℕ) where
  session : SessionId → Session
  inFlight : List Context
  manager : ClientSessionManager
  owner : Lock → Option (Thread workers)
  LSendRequestSessionList : Fin workers → List SessionId

/-- What the outside decides for an operation: whether a Winsock call succeeds, and what
is dequeued, if anything. -/
structure Input where
  success : Bool
  packet : Option Packet
  data : List UInt8

/-- No more is transferred than was asked for, and a receive transfers the bytes it reports. -/
def Packet.Reports (packet : Packet) (data : List UInt8) : Prop :=
  packet.dwTransferred ≤ packet.context.mWsaBuf.len ∧
    (packet.context.mIoType = .ioRecv → data.length = packet.dwTransferred)

instance (packet : Packet) (data : List UInt8) : Decidable (packet.Reports data) :=
  inferInstanceAs (Decidable (_ ∧ _))

/-- Why an operation does not take place. -/
inductive Refusal where
  | taken (lock : Lock)
  | notInFlight
  | emptyFreeList
  | crash

/-- A completed receive has filled its window. -/
def arrive (packet : Packet) (data : List UInt8) (session : Session) : Session :=
  match packet.context.mIoType, packet.ret, packet.context.mWsaBuf.buf with
  | .ioRecv, true, some start =>
      { session with
        mRecvBuffer :=
          { session.mRecvBuffer with
            mBuffer := Region.write session.mRecvBuffer.mBuffer start data } }
  | _, _, _ => session

/-- `memcpy` from the receive buffer to the send buffer. -/
def copy (dest source len : ℕ) (session : Session) : Session :=
  { session with
    mSendBuffer :=
      { session.mSendBuffer with
        mBuffer := Region.write session.mSendBuffer.mBuffer dest
          (Region.read session.mRecvBuffer.mBuffer source len) } }

namespace State

variable {workers : ℕ}

/-- The state with another value of one session. -/
def setSession (session : SessionId) (value : Session) (state : State workers) : State workers :=
  { state with session := Function.update state.session session value }

/-- The state with a lock taken or left. -/
def setOwner (lock : Lock) (owner : Option (Thread workers)) (state : State workers) :
    State workers :=
  { state with owner := Function.update state.owner lock owner }

/-- The state with another queue of one worker. -/
def setSendRequests (worker : Fin workers) (requests : List SessionId) (state : State workers) :
    State workers :=
  { state with
    LSendRequestSessionList := Function.update state.LSendRequestSessionList worker requests }

/-- What an operation of a thread does. -/
def perform (thread : Thread workers) (input : Input) :
    (operation : Operation) → State workers → Except Refusal (operation.Result × State workers)
  | .enterLock lock, state =>
      match state.owner lock with
      | none => .ok ((), state.setOwner lock (some thread))
      | some _ => .error (.taken lock)
  | .leaveLock lock, state => .ok ((), state.setOwner lock none)
  | .isConnected session, state => .ok ((state.session session).mConnected, state)
  | .exchangeConnected session connected, state =>
      .ok ((state.session session).mConnected,
        state.setSession session { state.session session with mConnected := connected })
  | .storeConnected session, state =>
      .ok ((), state.setSession session { state.session session with mConnected := false })
  | .loadRefCount session, state => .ok ((state.session session).mRefCount, state)
  | .incrementRefCount session, state =>
      let count := (state.session session).mRefCount + 1
      .ok (count, state.setSession session { state.session session with mRefCount := count })
  | .decrementRefCount session, state =>
      let count := (state.session session).mRefCount - 1
      .ok (count, state.setSession session { state.session session with mRefCount := count })
  | .storeRefCount session, state =>
      .ok ((), state.setSession session { state.session session with mRefCount := 0 })
  | .loadSendPendingCount session, state => .ok ((state.session session).mSendPendingCount, state)
  | .addSendPendingCount session change, state =>
      .ok ((), state.setSession session
        { state.session session with
          mSendPendingCount := (state.session session).mSendPendingCount + change })
  | .recvBuffer session call, state =>
      let (result, buffer) := (state.session session).mRecvBuffer.onCall call
      .ok (result,
        state.setSession session { state.session session with mRecvBuffer := buffer })
  | .sendBuffer session call, state =>
      let (result, buffer) := (state.session session).mSendBuffer.onCall call
      .ok (result,
        state.setSession session { state.session session with mSendBuffer := buffer })
  | .memcpy session dest source len, state =>
      match source with
      | none => .error .crash
      | some source =>
          .ok ((), state.setSession session (copy dest source len (state.session session)))
  | .pushSendRequest session, state =>
      match thread with
      | .worker worker =>
          .ok ((), state.setSendRequests worker
            (state.LSendRequestSessionList worker ++ [session]))
      | _ => .error .crash
  | .frontSendRequest, state =>
      match thread with
      | .worker worker => .ok ((state.LSendRequestSessionList worker).head?, state)
      | _ => .error .crash
  | .popSendRequest, state =>
      match thread with
      | .worker worker =>
          .ok ((), state.setSendRequests worker (state.LSendRequestSessionList worker).tail)
      | _ => .error .crash
  | .submit context, state =>
      if input.success then .ok (true, { state with inFlight := context :: state.inFlight })
      else .ok (false, state)
  | .setUp _, state => .ok (input.success, state)
  | .getQueuedCompletionStatus, state =>
      match input.packet with
      | none => .ok (none, state)
      | some packet =>
          if packet.context ∈ state.inFlight ∧ packet.Reports input.data then
            let session := packet.context.mSessionObject
            .ok (some packet,
              { state.setSession session (arrive packet input.data (state.session session)) with
                inFlight := state.inFlight.erase packet.context })
          else .error .notInFlight
  | .belowMaxConnection, state =>
      let issued := Word.sub64 state.manager.mCurrentIssueCount state.manager.mCurrentReturnCount
      .ok (decide (issued < maxConnection), state)
  | .popFreeSession, state =>
      match state.manager.mFreeSessionList with
      | [] => .error .emptyFreeList
      | client :: rest =>
          .ok (client, { state with manager := { state.manager with mFreeSessionList := rest } })
  | .pushFreeSession client, state =>
      .ok ((), { state with
        manager := { state.manager with
          mFreeSessionList := client :: state.manager.mFreeSessionList } })
  | .countIssue, state =>
      .ok ((), { state with
        manager := { state.manager with
          mCurrentIssueCount := state.manager.mCurrentIssueCount + 1 } })
  | .countReturn, state =>
      .ok ((), { state with
        manager := { state.manager with
          mCurrentReturnCount := state.manager.mCurrentReturnCount + 1 } })
  | .crash, _ => .error .crash

end State

/-- What the threads run, and what their operations do. -/
def program (workers : ℕ) : Program (Thread workers) Mode (State workers) Input Refusal
    Operation.Result where
  body := body
  perform := State.perform

/-- The server when the sessions have been prepared. -/
def State.start (workers : ℕ) (raw : RawMemory) : State workers where
  session self := .construct (raw.recv self) (raw.send self) (bufSize self)
  inFlight := []
  manager := ⟨prepareClientSessions maxConnection (Nat.le_refl _), 0, 0⟩
  owner _ := none
  LSendRequestSessionList _ := []

/-- The mode a thread begins in. -/
def Mode.start {workers : ℕ} : Thread workers → Mode
  | .main => .accept
  | .connecting _ => .connect
  | .worker _ => .iocpJob

/-- The server with the code its threads have to run. -/
abbrev Running (workers : ℕ) : Type :=
  Config (Thread workers) Mode (State workers) Operation.Result

/-- All runs of the server. -/
def lockingServer (workers : ℕ) : Machine (Running workers) (Thread workers × Input) :=
  (program workers).machine (fun state => ∃ raw, state = .start workers raw) Mode.start

end Gsp.Homework5.Locking
