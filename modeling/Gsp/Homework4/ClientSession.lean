import Mathlib.Logic.Function.Basic
import Gsp.CircularBuffer.Calls
import Gsp.Lib.Threads

/-!
# The sessions of the echo server with one buffer

`ClientSession.cpp` and `SessionManager.cpp`, cut into operations between which
other threads may act: every lock, interlocked access, buffer call and Winsock
call is one operation, and so is entering a function whose circumstances matter.

`mRefCount` and the counters of the manager are on plain integers. `DoSync`,
`DoSyncAfter` and the timer jobs have empty bodies. Sockets, addresses, log texts
and disconnect reasons decide nothing; a Winsock call is represented by whether
it succeeds or stays pending.
-/

namespace Gsp.Homework4

/-- What an overlapped call is for. -/
inductive IOType where
  | ioNone
  | ioSend
  | ioRecv
  | ioRecvZero
  | ioAccept
  | ioDisconnect
deriving DecidableEq

/-- `MAX_CONNECTION`. -/
def maxConnection : ℕ := 10000

/-- `BUFSIZE`. -/
def bufSize : ℕ := 65536

/-- A client session by its place among those the manager prepares. -/
abbrev ClientId : Type := Fin maxConnection

/-- A length and an offset into the buffer of the session. -/
structure WsaBuf where
  len : ℕ
  buf : Option ℕ
deriving DecidableEq

/-- An overlapped call: its session, its type and its window. -/
structure OverlappedIOContext where
  mSessionObject : ClientId
  mIoType : IOType
  mWsaBuf : WsaBuf
deriving DecidableEq

/-- The buffer of a session with what its connection has brought in, receive by receive,
and what has been removed. -/
structure Stream where
  mBuffer : CircularBuffer
  received : List (List UInt8)
  removed : List UInt8

/-- A session with its contexts in flight. -/
structure ClientSession extends Stream where
  mRefCount : ℤ
  mConnected : Bool
  inFlight : List OverlappedIOContext

/-- The free list is written from its back, where it grows and shrinks. -/
structure SessionManager where
  mFreeSessionList : List ClientId
  mCurrentIssueCount : ℕ
  mCurrentReturnCount : ℕ

/-- The lock of the manager, that of a session, and that of the pool of a context type. -/
inductive Lock where
  | mLock
  | mBufferLock (client : ClientId)
  | classLock (mIoType : IOType)
deriving DecidableEq

/-- Functions whose calls are operations of their own. -/
inductive Function where
  | postRecv
  | postSend
  | returnClientSession
deriving DecidableEq

/-- The calls that prepare an accepted socket. -/
inductive SetUp where
  | soUpdateAcceptContext
  | tcpNoDelay
  | soRcvBuf
  | getPeerName
  | createIoCompletionPort
deriving DecidableEq

/-- What `GetQueuedCompletionStatus` returns, with whether `GetLastError` then reads
`WAIT_TIMEOUT`. -/
structure Packet where
  context : OverlappedIOContext
  ret : Bool
  dwTransferred : ℕ
  waitTimeout : Bool

/-- What a thread does in one step. -/
inductive Operation where
  | enters (function : Function) (client : ClientId)
  | enterLock (lock : Lock)
  | leaveLock (lock : Lock)
  | isConnected (client : ClientId)
  | exchangeConnected (client : ClientId) (connected : Bool)
  | storeConnected (client : ClientId)
  | loadRefCount (client : ClientId)
  | incrementRefCount (client : ClientId)
  | decrementRefCount (client : ClientId)
  | storeRefCount (client : ClientId)
  | buffer (client : ClientId) (call : BufferCall)
  | submit (context : OverlappedIOContext)
  | setUp (call : SetUp)
  | getQueuedCompletionStatus
  | belowMaxConnection
  | popFreeSession
  | pushFreeSession (client : ClientId)
  | countIssue
  | countReturn
  | crash
deriving DecidableEq

/-- What an operation returns. -/
def Operation.Result : Operation → Type
  | .isConnected _ | .exchangeConnected _ _ | .submit _ | .setUp _ | .belowMaxConnection => Bool
  | .loadRefCount _ | .incrementRefCount _ | .decrementRefCount _ => ℤ
  | .buffer _ call => call.Result
  | .getQueuedCompletionStatus => Packet
  | .popFreeSession => ClientId
  | .crash => Empty
  | _ => Unit

/-- Code of the server. -/
abbrev Task : Type → Type := Code Operation Operation.Result

/-! ## The operations as code -/

/-- The code of one operation. -/
def act (operation : Operation) : Task operation.Result := .perform operation

/-- The call of a function. -/
def enters (function : Function) (client : ClientId) : Task Unit :=
  act (.enters function client)

/-- `EnterLock`. -/
def enterLock (lock : Lock) : Task Unit := act (.enterLock lock)

/-- `LeaveLock`. -/
def leaveLock (lock : Lock) : Task Unit := act (.leaveLock lock)

/-- Hands a context to Winsock; false if Winsock refuses it. -/
def submit (context : OverlappedIOContext) : Task Bool := act (.submit context)

/-- A call on the socket; false if it fails. -/
def setUp (call : SetUp) : Task Bool := act (.setUp call)

/-- `GetQueuedCompletionStatus`. -/
def getQueuedCompletionStatus : Task Packet := act .getQueuedCompletionStatus

/-- A failed assertion; nothing comes after it. -/
def crash {Value : Type} : Task Value := .call .crash Empty.elim

/-- `CRASH_ASSERT`. -/
def crashAssert (condition : Bool) : Task Unit :=
  if condition then pure () else crash

/-- `FastSpinlockGuard` or `LockGuard` around a block. -/
def guarded {Value : Type} (lock : Lock) (block : Task Value) : Task Value := do
  enterLock lock
  let value ← block
  leaveLock lock
  return value

namespace SessionManager

/-- The condition of the accepting loop. -/
def belowMaxConnection : Task Bool := act .belowMaxConnection

/-- `mFreeSessionList.back()` and `pop_back()`. -/
def popFreeSession : Task ClientId := act .popFreeSession

/-- `mFreeSessionList.push_back`. -/
def pushFreeSession (client : ClientId) : Task Unit := act (.pushFreeSession client)

/-- `++mCurrentIssueCount`. -/
def countIssue : Task Unit := act .countIssue

/-- `++mCurrentReturnCount`. -/
def countReturn : Task Unit := act .countReturn

end SessionManager

/-! ## The functions of a session -/

namespace ClientSession

/-- `IsConnected`, which reads `mConnected`. -/
def isConnected (client : ClientId) : Task Bool := act (.isConnected client)

/-- `InterlockedExchange` on `mConnected`; returns what was there. -/
def exchangeConnected (client : ClientId) (connected : Bool) : Task Bool :=
  act (.exchangeConnected client connected)

/-- `mConnected = 0`. -/
def storeConnected (client : ClientId) : Task Unit := act (.storeConnected client)

/-- Reads `mRefCount`. -/
def loadRefCount (client : ClientId) : Task ℤ := act (.loadRefCount client)

/-- `InterlockedIncrement` of `mRefCount`. -/
def incrementRefCount (client : ClientId) : Task ℤ := act (.incrementRefCount client)

/-- `InterlockedDecrement` of `mRefCount`. -/
def decrementRefCount (client : ClientId) : Task ℤ := act (.decrementRefCount client)

/-- `mRefCount = 0`. -/
def storeRefCount (client : ClientId) : Task Unit := act (.storeRefCount client)

/-- A call on `mBuffer`. -/
def buffer (client : ClientId) (call : BufferCall) : Task call.Result :=
  act (.buffer client call)

/-- `AddRef`. -/
def addRef (client : ClientId) : Task Unit := do
  let count ← incrementRefCount client
  crashAssert (0 < count)

/-- `SessionReset`. -/
def sessionReset (client : ClientId) : Task Unit := do
  storeConnected client
  storeRefCount client
  buffer client .bufferReset

/-- `SessionManager::ReturnClientSession`. -/
def returnClientSession (client : ClientId) : Task Unit := do
  enters .returnClientSession client
  guarded .mLock do
    let connected ← isConnected client
    let count ← loadRefCount client
    crashAssert (!connected && count = 0)
    sessionReset client
    SessionManager.pushFreeSession client
    SessionManager.countReturn

/-- `ReleaseRef`; whoever releases the last reference returns the session. -/
def releaseRef (client : ClientId) : Task Unit := do
  let ret ← decrementRefCount client
  crashAssert (0 ≤ ret)
  if ret = 0 then returnClientSession client

/-- `new` from the pool of the type, with the constructor's `AddRef`. -/
def newContext (client : ClientId) (mIoType : IOType) : Task OverlappedIOContext := do
  guarded (.classLock mIoType) (pure ())
  addRef client
  return ⟨client, mIoType, ⟨0, none⟩⟩

/-- `DeleteIoContext`: the reference is released, then the context freed. -/
def deleteIoContext (context : OverlappedIOContext) : Task Unit := do
  releaseRef context.mSessionObject
  if context.mIoType = .ioNone then crash
  else guarded (.classLock context.mIoType) (pure ())

/-- Hands the context to Winsock; if that fails it is deleted. -/
def post (context : OverlappedIOContext) : Task Bool := do
  let posted ← submit context
  if posted then return true
  else do
    deleteIoContext context
    return false

/-- `PostAccept`: the `AcceptEx` of a session just taken from the pool. -/
def postAccept (client : ClientId) : Task Bool := do
  let acceptContext ← newContext client .ioAccept
  post acceptContext

/-- `DisconnectRequest`: the one that finds the session connected posts. -/
def disconnectRequest (client : ClientId) : Task Unit := do
  let connected ← exchangeConnected client false
  if connected then do
    let context ← newContext client .ioDisconnect
    let _ ← post context

/-- `DisconnectCompletion`: the reference of the connection goes. -/
def disconnectCompletion (client : ClientId) : Task Unit :=
  releaseRef client

/-- `PreRecv`: a receive of no bytes, which tells that some have come. -/
def preRecv (client : ClientId) : Task Bool := do
  let connected ← isConnected client
  if connected then do
    let recvContext ← newContext client .ioRecvZero
    post recvContext
  else return false

/-- `PostRecv`: a receive into the free space of the buffer. -/
def postRecv (client : ClientId) : Task Bool := do
  enters .postRecv client
  let connected ← isConnected client
  if connected then
    guarded (.mBufferLock client) do
      let free : ℕ ← buffer client .getFreeSpaceSize
      if free = 0 then return false
      else do
        let recvContext ← newContext client .ioRecv
        let len : ℕ ← buffer client .getFreeSpaceSize
        let buf : ℕ ← buffer client .getBuffer
        post { recvContext with mWsaBuf := ⟨Word.toUInt32 len, some buf⟩ }
  else return false

/-- `RecvCompletion`: what has come is committed. -/
def recvCompletion (client : ClientId) (transferred : ℕ) : Task Unit :=
  guarded (.mBufferLock client) (buffer client (.commit transferred))

/-- `PostSend`: a send of what is contiguous in the buffer. -/
def postSend (client : ClientId) : Task Bool := do
  enters .postSend client
  let connected ← isConnected client
  if connected then
    guarded (.mBufferLock client) do
      let contiguious : ℕ ← buffer client .getContiguiousBytes
      if contiguious = 0 then return true
      else do
        let sendContext ← newContext client .ioSend
        let len : ℕ ← buffer client .getContiguiousBytes
        let buf : Option ℕ ← buffer client .getBufferStart
        post { sendContext with mWsaBuf := ⟨Word.toUInt32 len, buf⟩ }
  else return false

/-- `SendCompletion`: what has been sent is removed. -/
def sendCompletion (client : ClientId) (transferred : ℕ) : Task Unit :=
  guarded (.mBufferLock client) (buffer client (.remove transferred))

/-- The calls up to the first that fails. -/
def setUpSocket : List SetUp → Task Bool
  | [] => return true
  | call :: calls => do
      let resultOk ← setUp call
      if resultOk then setUpSocket calls else return false

/-- `AcceptCompletion`: the session is connected before its socket is set up. -/
def acceptCompletion (client : ClientId) : Task Unit := do
  let connected ← exchangeConnected client true
  if connected then crash
  else do
    let resultOk ← setUpSocket
      [.soUpdateAcceptContext, .tcpNoDelay, .soRcvBuf, .getPeerName, .createIoCompletionPort]
    if resultOk then do
      let _ ← preRecv client
    else disconnectRequest client

end ClientSession

end Gsp.Homework4
