import Mathlib.Data.Fintype.Option
import Gsp.CircularBuffer.Invariant
import Gsp.Homework4.ClientSession

/-!
# The threads of the echo server with one buffer

`IocpManager.cpp` and the accepting loop of `SessionManager.cpp`, and what each
operation does to the server. The main thread accepts, the others take completed
contexts. A failed assertion and a lock that is taken leave the thread where it is.
-/

namespace Gsp.Homework4

/-- `none` is the main thread. -/
abbrev Thread (workers : ℕ) : Type := Option (Fin workers)

/-- What the threads share, with the owner of each lock. -/
structure Server (workers : ℕ) where
  session : ClientId → ClientSession
  manager : SessionManager
  owner : Lock → Option (Thread workers)

/-- What the outside decides for an operation: whether a Winsock call succeeds, and what
is dequeued. -/
structure Input where
  success : Bool
  packet : Packet
  data : List UInt8

/-- No more is transferred than was asked for, and a receive transfers the bytes it reports. -/
def Input.Reports (input : Input) : Prop :=
  input.packet.dwTransferred ≤ input.packet.context.mWsaBuf.len ∧
    (input.packet.context.mIoType = .ioRecv → input.data.length = input.packet.dwTransferred)

instance (input : Input) : Decidable input.Reports :=
  inferInstanceAs (Decidable (_ ∧ _))

/-- Why an operation does not take place. -/
inductive Stop where
  | taken (lock : Lock)
  | notInFlight
  | emptyFreeList
  | crash

namespace Stream

/-- A call on `mBuffer`. -/
def onBuffer (stream : Stream) : (call : BufferCall) → call.Result × Stream
  | .getFreeSpaceSize =>
      let (free, buffer) := stream.mBuffer.getFreeSpaceSize
      (free, { stream with mBuffer := buffer })
  | .getBuffer => (stream.mBuffer.getBuffer, stream)
  | .getContiguiousBytes => (stream.mBuffer.getContiguiousBytes, stream)
  | .getBufferStart => (stream.mBuffer.getBufferStart, stream)
  | .commit len => ((), { stream with mBuffer := stream.mBuffer.commit len })
  | .remove len =>
      ((), { stream with
        mBuffer := stream.mBuffer.remove len
        removed := stream.removed ++ stream.mBuffer.contents.take len })
  | .bufferReset => ((), { stream with mBuffer := stream.mBuffer.bufferReset })

/-- A completed receive has filled its window. -/
def arrive (input : Input) (stream : Stream) : Stream :=
  match input.packet.context.mIoType, input.packet.ret, input.packet.context.mWsaBuf.buf with
  | .ioRecv, true, some start =>
      { stream with
        mBuffer :=
          { stream.mBuffer with
            mBuffer := Region.write stream.mBuffer.mBuffer start input.data }
        received := stream.received ++ [input.data] }
  | _, _, _ => stream

/-- A new connection. -/
def restart (stream : Stream) : Stream :=
  { stream with received := [], removed := [] }

end Stream

namespace Server

variable {workers : ℕ}

/-- The server with another value of one session. -/
def setSession (client : ClientId) (session : ClientSession) (server : Server workers) :
    Server workers :=
  { server with session := Function.update server.session client session }

/-- The server with a lock taken or left. -/
def setOwner (lock : Lock) (owner : Option (Thread workers)) (server : Server workers) :
    Server workers :=
  { server with owner := Function.update server.owner lock owner }

/-- What an operation of a thread does. -/
def perform (thread : Thread workers) (input : Input) :
    (operation : Operation) → Server workers → Except Stop (operation.Result × Server workers)
  | .enters _ _, server => .ok ((), server)
  | .enterLock lock, server =>
      match server.owner lock with
      | none => .ok ((), server.setOwner lock (some thread))
      | some _ => .error (.taken lock)
  | .leaveLock lock, server => .ok ((), server.setOwner lock none)
  | .isConnected client, server => .ok ((server.session client).mConnected, server)
  | .exchangeConnected client connected, server =>
      .ok ((server.session client).mConnected,
        server.setSession client { server.session client with mConnected := connected })
  | .storeConnected client, server =>
      .ok ((), server.setSession client { server.session client with mConnected := false })
  | .loadRefCount client, server => .ok ((server.session client).mRefCount, server)
  | .incrementRefCount client, server =>
      let count := (server.session client).mRefCount + 1
      .ok (count, server.setSession client { server.session client with mRefCount := count })
  | .decrementRefCount client, server =>
      let count := (server.session client).mRefCount - 1
      .ok (count, server.setSession client { server.session client with mRefCount := count })
  | .storeRefCount client, server =>
      .ok ((), server.setSession client { server.session client with mRefCount := 0 })
  | .buffer client call, server =>
      let (result, stream) := (server.session client).toStream.onBuffer call
      .ok (result, server.setSession client { server.session client with toStream := stream })
  | .submit context, server =>
      if input.success then
        let session := server.session context.mSessionObject
        .ok (true, server.setSession context.mSessionObject
          { session with inFlight := session.inFlight ++ [context] })
      else .ok (false, server)
  | .setUp _, server => .ok (input.success, server)
  | .getQueuedCompletionStatus, server =>
      let client := input.packet.context.mSessionObject
      let session := server.session client
      if input.packet.context ∈ session.inFlight ∧ input.Reports then
        .ok (input.packet, server.setSession client { session with
          toStream := session.toStream.arrive input
          inFlight := session.inFlight.erase input.packet.context })
      else .error .notInFlight
  | .belowMaxConnection, server =>
      let issued := Word.sub64 server.manager.mCurrentIssueCount server.manager.mCurrentReturnCount
      .ok (decide (issued < maxConnection), server)
  | .popFreeSession, server =>
      match server.manager.mFreeSessionList with
      | [] => .error .emptyFreeList
      | client :: rest =>
          let session := server.session client
          .ok (client, { server.setSession client
              { session with toStream := session.toStream.restart } with
            manager := { server.manager with mFreeSessionList := rest } })
  | .pushFreeSession client, server =>
      .ok ((), { server with
        manager := { server.manager with
          mFreeSessionList := client :: server.manager.mFreeSessionList } })
  | .countIssue, server =>
      .ok ((), { server with
        manager := { server.manager with
          mCurrentIssueCount := server.manager.mCurrentIssueCount + 1 } })
  | .countReturn, server =>
      .ok ((), { server with
        manager := { server.manager with
          mCurrentReturnCount := server.manager.mCurrentReturnCount + 1 } })
  | .crash, _ => .error .crash

end Server

/-! ## The threads -/

/-- Where a thread is in its loop; the main thread inside `AcceptSessions` is `accepting`
and holds `mLock`. -/
inductive Mode where
  | iocp
  | accept
  | accepting
  | stopped
deriving DecidableEq

namespace IocpManager

open ClientSession SessionManager

/-- `PreReceiveCompletion`. -/
def preReceiveCompletion (client : ClientId) : Task Bool :=
  postRecv client

/-- `ReceiveCompletion`. -/
def receiveCompletion (client : ClientId) (dwTransferred : ℕ) : Task Bool := do
  recvCompletion client dwTransferred
  postSend client

/-- `SendCompletion`. -/
def sendCompletion (client : ClientId) (context : OverlappedIOContext) (dwTransferred : ℕ) :
    Task Bool := do
  ClientSession.sendCompletion client dwTransferred
  if context.mWsaBuf.len ≠ dwTransferred then return false
  else preRecv client

/-- The dispatch on `mIoType`. -/
def dispatch (client : ClientId) (context : OverlappedIOContext) (dwTransferred : ℕ) :
    Task Bool :=
  match context.mIoType with
  | .ioDisconnect => do
      disconnectCompletion client
      return true
  | .ioAccept => do
      acceptCompletion client
      return true
  | .ioRecvZero => preReceiveCompletion client
  | .ioSend => sendCompletion client context dwTransferred
  | .ioRecv => receiveCompletion client dwTransferred
  | .ioNone => crash

/-- A send or receive that failed or transferred nothing. -/
def failCompletion (client : ClientId) (context : OverlappedIOContext) : Task Mode := do
  disconnectRequest client
  deleteIoContext context
  return .iocp

/-- A completion is dispatched and its context closed. -/
def handleCompletion (client : ClientId) (context : OverlappedIOContext) (dwTransferred : ℕ) :
    Task Mode := do
  let completionOk ← dispatch client context dwTransferred
  if completionOk = false then disconnectRequest client
  deleteIoContext context
  return .iocp

/-- One iteration of the loop of `IoWorkerThread`. -/
def ioWorkerThread : Task Mode := do
  let ⟨context, ret, dwTransferred, waitTimeout⟩ ← getQueuedCompletionStatus
  if ret = false ∨ dwTransferred = 0 then
    if waitTimeout then return .iocp
    else if context.mIoType = .ioRecv ∨ context.mIoType = .ioSend then
      failCompletion context.mSessionObject context
    else handleCompletion context.mSessionObject context dwTransferred
  else handleCompletion context.mSessionObject context dwTransferred

/-- `AcceptSessions` up to its loop. -/
def acceptSessions : Task Mode := do
  enterLock .mLock
  return .accepting

/-- One iteration of the loop of `AcceptSessions`, or what follows it. -/
def acceptSession : Task Mode := do
  let below ← belowMaxConnection
  if below then do
    let newClient ← popFreeSession
    countIssue
    addRef newClient
    let posted ← postAccept newClient
    if posted then return .accepting
    else do
      leaveLock .mLock
      return .stopped
  else do
    leaveLock .mLock
    return .accept

/-- What a thread runs in a mode. -/
def body {workers : ℕ} : Thread workers → Mode → Task Mode
  | some _, _ => ioWorkerThread
  | none, .accept => acceptSessions
  | none, .accepting => acceptSession
  | none, mode => return mode

end IocpManager

/-- What the threads run, and what their operations do. -/
def program (workers : ℕ) :
    Program (Thread workers) Mode (Server workers) Input Stop Operation.Result where
  body := IocpManager.body
  perform := Server.perform

/-- The free list after `count` iterations of `PrepareSessions`. -/
def prepareSessions : (count : ℕ) → count ≤ maxConnection → List ClientId
  | 0, _ => []
  | count + 1, le => ⟨count, le⟩ :: prepareSessions count (Nat.le_of_succ_le le)

/-- A constructed session, on a raw block. -/
def ClientSession.construct (raw : ℕ → UInt8) : ClientSession where
  mBuffer := .construct raw bufSize
  received := []
  removed := []
  mRefCount := 0
  mConnected := false
  inFlight := []

/-- The server when the sessions have been prepared. -/
def Server.start (workers : ℕ) (raw : ClientId → ℕ → UInt8) : Server workers where
  session client := .construct (raw client)
  manager := ⟨prepareSessions maxConnection (Nat.le_refl _), 0, 0⟩
  owner _ := none

/-- The mode a thread begins in. -/
def Mode.start {workers : ℕ} : Thread workers → Mode
  | none => .accept
  | some _ => .iocp

/-- All runs of the server. -/
def echoServer (workers : ℕ) :
    Machine (Config (Thread workers) Mode (Server workers) Operation.Result)
      (Thread workers × Input) :=
  (program workers).machine (fun server => ∃ raw, server = .start workers raw) Mode.start

end Gsp.Homework4
