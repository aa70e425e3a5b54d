import Gsp.CircularBuffer.Calls
import Gsp.Lib.Code
import Gsp.MyPacket.PacketHandler
import Gsp.MyPacket.SendRequest

/-!
# The sessions of the dummy clients

`Session.cpp`, `DummyClientSession.cpp` and `OverlappedIOContext.cpp`, cut into
operations between which other threads may act: every lock, interlocked access, call
on a buffer and Winsock call is one operation.

`mSendPendingCount` and the writing of a request are used under `mSendBufferLock`
only; an access to the one and the other as a whole are one operation each. So are
`Commit`, `OnReceive` with its handlers and `mRecvTotal` of a completed receive, which
tell whether the session has been asked to disconnect; asking it twice does nothing.
A Winsock call is represented by whether it succeeds or stays pending. Reference
counts are on plain integers; addresses, log texts and disconnect reasons decide
nothing.
-/

namespace Gsp.DummyClients

open DummyClient MyPacket

/-- A session by its place in `mReadySessionList`, which has `MAX_CONNECTION` of them. -/
abbrev ClientId (connections : ℕ) : Type := Fin connections

/-- What an overlapped call is for. -/
inductive IOType where
  | ioNone
  | ioSend
  | ioRecv
  | ioRecvZero
  | ioDisconnect
  | ioConnect
deriving DecidableEq

/-- A length and an offset into a buffer of the session. -/
structure WsaBuf where
  len : ℕ
  buf : Option ℕ
deriving DecidableEq

/-- An overlapped call: its session, its type and its window. -/
structure OverlappedIOContext (connections : ℕ) where
  mSessionObject : ClientId connections
  mIoType : IOType
  mWsaBuf : WsaBuf
deriving DecidableEq

/-- The lock of the session manager, that of a send buffer, and that of the pool of a
context type. -/
inductive Lock (connections : ℕ) where
  | mLock
  | mSendBufferLock (client : ClientId connections)
  | classLock (mIoType : IOType)
deriving DecidableEq

/-- The calls of `ConnectCompletion` on the socket. -/
inductive SockOpt where
  | soUpdateConnectContext
  | tcpNoDelay
  | soRcvBuf
deriving DecidableEq

/-- The assertions by what they are about. -/
inductive Assertion where
  | sockOpt
  | connected
  | refCount
  | ioType
deriving DecidableEq

/-- What `GetQueuedCompletionStatus` comes back with. -/
inductive Status (connections : ℕ) where
  | waitTimeout
  | stopNow
  | packet (context : OverlappedIOContext connections) (ret : Bool) (dwTransferred : ℕ)

/-- What a thread does in one step. -/
inductive Operation (connections : ℕ) where
  | enterLock (lock : Lock connections)
  | leaveLock (lock : Lock connections)
  | isConnected (client : ClientId connections)
  | exchangeConnected (client : ClientId connections) (connected : Bool)
  | incrementRefCount (client : ClientId connections)
  | decrementRefCount (client : ClientId connections)
  | onRelease (client : ClientId connections)
  | increaseClientSession
  | submit (context : OverlappedIOContext connections)
  | setSockOpt (option : SockOpt)
  | getQueuedCompletionStatus
  | recvBuffer (client : ClientId connections) (call : BufferCall)
  | recvCompletion (client : ClientId connections) (transferred : ℕ)
  | sendBuffer (client : ClientId connections) (call : BufferCall)
  | loadSendPendingCount (client : ClientId connections)
  | addSendPendingCount (client : ClientId connections) (change : ℤ)
  | loadId
  | storeId (id : Int32)
  | writeRequest (client : ClientId connections) (id : Int32)
  | pushRequest (client : ClientId connections)
  | frontRequest
  | popRequest
  | crash (assertion : Assertion)
deriving DecidableEq

/-- What an operation returns. -/
def Operation.Result {connections : ℕ} : Operation connections → Type
  | .isConnected _ | .exchangeConnected _ _ | .submit _ | .setSockOpt _ | .recvCompletion _ _
  | .writeRequest _ _ => Bool
  | .incrementRefCount _ | .decrementRefCount _ | .loadSendPendingCount _
  | .addSendPendingCount _ _ => ℤ
  | .getQueuedCompletionStatus => Status connections
  | .recvBuffer _ call | .sendBuffer _ call => call.Result
  | .loadId => Int32
  | .frontRequest => Option (ClientId connections)
  | .crash _ => Empty
  | _ => Unit

/-- Code of the dummy clients. -/
abbrev Task (connections : ℕ) : Type → Type :=
  Code (Operation connections) Operation.Result

section Functions

variable {connections : ℕ}

/-! ## The operations as code -/

/-- The code of one operation. -/
def act (operation : Operation connections) : Task connections operation.Result :=
  .perform operation

/-- `EnterLock`. -/
def enterLock (lock : Lock connections) : Task connections Unit := act (.enterLock lock)

/-- `LeaveLock`. -/
def leaveLock (lock : Lock connections) : Task connections Unit := act (.leaveLock lock)

/-- Hands a context to Winsock; false if Winsock refuses it. -/
def submit (context : OverlappedIOContext connections) : Task connections Bool :=
  act (.submit context)

/-- A call on the socket; false if it fails. -/
def setSockOpt (option : SockOpt) : Task connections Bool := act (.setSockOpt option)

/-- `GetQueuedCompletionStatus`. -/
def getQueuedCompletionStatus : Task connections (Status connections) :=
  act .getQueuedCompletionStatus

/-- Appends the session to the queue of the thread. -/
def pushRequest (client : ClientId connections) : Task connections Unit :=
  act (.pushRequest client)

/-- The front of the queue of the thread, if there is one. -/
def frontRequest : Task connections (Option (ClientId connections)) := act .frontRequest

/-- Drops the front of the queue of the thread. -/
def popRequest : Task connections Unit := act .popRequest

/-- Reads the next player id. -/
def loadId : Task connections Int32 := act .loadId

/-- Writes the next player id. -/
def storeId (id : Int32) : Task connections Unit := act (.storeId id)

/-- A failed assertion; nothing comes after it. -/
def crash {Value : Type} (assertion : Assertion) : Task connections Value :=
  .call (.crash assertion) Empty.elim

/-- `CRASH_ASSERT`. -/
def crashAssert (assertion : Assertion) (condition : Bool) : Task connections Unit :=
  if condition then pure () else crash assertion

/-- `FastSpinlockGuard` or `LockGuard` around a block. -/
def guarded {Value : Type} (lock : Lock connections) (block : Task connections Value) :
    Task connections Value := do
  enterLock lock
  let value ← block
  leaveLock lock
  return value

namespace SessionManager

/-- `IncreaseClientSession`. -/
def increaseClientSession : Task connections Unit := act .increaseClientSession

end SessionManager

/-! ## Session.cpp and OverlappedIOContext.cpp -/

namespace Session

/-- `IsConnected`, which reads `mConnected`. -/
def isConnected (client : ClientId connections) : Task connections Bool :=
  act (.isConnected client)

/-- `InterlockedExchange` on `mConnected`; returns what was there. -/
def exchangeConnected (client : ClientId connections) (connected : Bool) : Task connections Bool :=
  act (.exchangeConnected client connected)

/-- `InterlockedIncrement` of `mRefCount`. -/
def incrementRefCount (client : ClientId connections) : Task connections ℤ :=
  act (.incrementRefCount client)

/-- `InterlockedDecrement` of `mRefCount`. -/
def decrementRefCount (client : ClientId connections) : Task connections ℤ :=
  act (.decrementRefCount client)

/-- `DecreaseClientSession` for this session. -/
def onRelease (client : ClientId connections) : Task connections Unit := act (.onRelease client)

/-- A call on `mRecvBuffer`. -/
def recvBuffer (client : ClientId connections) (call : BufferCall) :
    Task connections call.Result :=
  act (.recvBuffer client call)

/-- A call on `mSendBuffer`. -/
def sendBuffer (client : ClientId connections) (call : BufferCall) :
    Task connections call.Result :=
  act (.sendBuffer client call)

/-- Reads `mSendPendingCount`. -/
def loadSendPendingCount (client : ClientId connections) : Task connections ℤ :=
  act (.loadSendPendingCount client)

/-- Adds to `mSendPendingCount`. -/
def addSendPendingCount (client : ClientId connections) (change : ℤ) : Task connections ℤ :=
  act (.addSendPendingCount client change)

/-- What `RecvCompletion` does to the receive buffer; returns whether it has asked to
disconnect. -/
def received (client : ClientId connections) (transferred : ℕ) : Task connections Bool :=
  act (.recvCompletion client transferred)

/-- Whether there has been room for the request. -/
def writeRequest (client : ClientId connections) (id : Int32) : Task connections Bool :=
  act (.writeRequest client id)

/-- `AddRef`. -/
def addRef (client : ClientId connections) : Task connections Unit := do
  let count ← incrementRefCount client
  crashAssert .refCount (0 < count)

/-- `ReleaseRef`; whoever releases the last reference calls `OnRelease`. -/
def releaseRef (client : ClientId connections) : Task connections Unit := do
  let ret ← decrementRefCount client
  crashAssert .refCount (0 ≤ ret)
  if ret = 0 then onRelease client

/-- `new` from the pool of the type, with the constructor's `AddRef`. -/
def newContext (client : ClientId connections) (mIoType : IOType) :
    Task connections (OverlappedIOContext connections) := do
  guarded (.classLock mIoType) (pure ())
  addRef client
  return ⟨client, mIoType, ⟨0, none⟩⟩

/-- `DeleteIoContext`: the reference is released, then the context freed. -/
def deleteIoContext (context : OverlappedIOContext connections) : Task connections Unit := do
  releaseRef context.mSessionObject
  if context.mIoType = .ioNone then crash .ioType
  else guarded (.classLock context.mIoType) (pure ())

/-- Hands the context to Winsock; if that fails it is deleted. -/
def post (context : OverlappedIOContext connections) : Task connections Bool := do
  let posted ← submit context
  if posted then return true
  else do
    deleteIoContext context
    return false

/-- `DisconnectRequest`: the one that finds the session connected posts. -/
def disconnectRequest (client : ClientId connections) : Task connections Unit := do
  let connected ← exchangeConnected client false
  if connected then do
    let context ← newContext client .ioDisconnect
    let _ ← post context

/-- `PreRecv`: a receive of no bytes, which tells that some have come. -/
def preRecv (client : ClientId connections) : Task connections Bool := do
  let connected ← isConnected client
  if connected then do
    let recvContext ← newContext client .ioRecvZero
    post recvContext
  else return false

/-- `PostRecv`: a receive into the free space of the buffer. -/
def postRecv (client : ClientId connections) : Task connections Bool := do
  let connected ← isConnected client
  if connected then do
    let free : ℕ ← recvBuffer client .getFreeSpaceSize
    if free = 0 then return false
    else do
      let recvContext ← newContext client .ioRecv
      let len : ℕ ← recvBuffer client .getFreeSpaceSize
      let buf : ℕ ← recvBuffer client .getBuffer
      post { recvContext with mWsaBuf := ⟨Word.toUInt32 len, some buf⟩ }
  else return false

/-- `FlushSend`; true if the request for the session may go. -/
def flushSend (client : ClientId connections) : Task connections Bool := do
  let connected ← isConnected client
  if connected then
    guarded (.mSendBufferLock client) do
      let contiguious : ℕ ← sendBuffer client .getContiguiousBytes
      let mSendPendingCount ← loadSendPendingCount client
      if contiguious = 0 then return mSendPendingCount = 0
      else if 0 < mSendPendingCount then return false
      else do
        let sendContext ← newContext client .ioSend
        let len : ℕ ← sendBuffer client .getContiguiousBytes
        let buf : Option ℕ ← sendBuffer client .getBufferStart
        let posted ← post { sendContext with mWsaBuf := ⟨Word.toUInt32 len, buf⟩ }
        if posted then do
          let mSendPendingCount ← addSendPendingCount client 1
          return mSendPendingCount = 1
        else do
          disconnectRequest client
          return true
  else do
    disconnectRequest client
    return true

/-- `DisconnectCompletion`: the reference of the connection goes. -/
def disconnectCompletion (client : ClientId connections) : Task connections Unit :=
  releaseRef client

/-- `SendCompletion`: what has been sent is removed. -/
def sendCompletion (client : ClientId connections) (transferred : ℕ) : Task connections Unit :=
  guarded (.mSendBufferLock client) do
    sendBuffer client (.remove transferred)
    let _ ← addSendPendingCount client (-1)

/-- `RecvCompletion`; a handler may have asked to disconnect. -/
def recvCompletion (client : ClientId connections) (transferred : ℕ) : Task connections Unit := do
  let asked ← received client transferred
  if asked then disconnectRequest client

end Session

/-! ## DummyClientSession.cpp -/

namespace DummyClientSession

open Session

/-- `ConnectRequest`: the `ConnectEx` of a session. -/
def connectRequest (client : ClientId connections) : Task connections Bool := do
  let connected ← isConnected client
  if connected then crash .connected
  else do
    let context ← newContext client .ioConnect
    let _ ← post context
    return true

/-- `SendRequest` of a login: the request is written and the session queued. -/
def sendRequest (client : ClientId connections) (id : Int32) : Task connections Bool := do
  let connected ← isConnected client
  if connected then
    guarded (.mSendBufferLock client) do
      let written ← writeRequest client id
      if written then do
        pushRequest client
        return true
      else return false
  else return false

/-- Reading and counting `id` are two operations. -/
def login (client : ClientId connections) : Task connections Unit := do
  let id ← loadId
  storeId (id + 1)
  let _ ← sendRequest client id

/-- A socket option whose failure is asserted against. -/
def assertSockOpt (option : SockOpt) : Task connections Unit := do
  let done ← setSockOpt option
  crashAssert .sockOpt done

/-- `ConnectCompletion`: a session that is set up logs in and starts to receive. -/
def connectCompletion (client : ClientId connections) : Task connections Unit := do
  let updated ← setSockOpt .soUpdateConnectContext
  if updated then do
    assertSockOpt .tcpNoDelay
    assertSockOpt .soRcvBuf
    let connected ← exchangeConnected client true
    crashAssert .connected (!connected)
    let posted ← preRecv client
    if posted then do
      SessionManager.increaseClientSession
      login client
    else do
      let _ ← exchangeConnected client false

end DummyClientSession

end Functions

end Gsp.DummyClients
