import Mathlib.Logic.Function.Basic
import Gsp.DummyClients.Session
import Gsp.Lib.Threads

/-!
# The threads of the dummy clients

`WorkerThread.cpp`, `SessionManager.cpp` and the main thread of `DummyClients.cpp`, and
what each operation does to the process. The main thread connects the sessions and,
when a key has been pressed, disconnects them; the others take completed contexts and
send what has been requested. A worker stops at any time after the main thread has
posted `CK_STOP_NOW`, which is left to what is dequeued.

The peer of a session sends packets with any payloads. A failed assertion and a lock
that is taken leave the thread where it is.
-/

namespace Gsp.DummyClients

open DummyClient MyPacket

/-- `none` is the main thread. -/
abbrev Thread (workers : ℕ) : Type := Option (Fin workers)

/-- A session with its contexts in flight and the calls of `OnRelease` so far. The
receive buffer, `mRecvTotal` and what the handlers have printed are in `receive`, whose
own `mConnected` tells whether the session has been asked to disconnect. -/
structure Session (connections : ℕ) where
  mRefCount : ℤ
  mConnected : Bool
  mSendPendingCount : ℤ
  mSendBuffer : CircularBuffer
  receive : Client
  inFlight : List (OverlappedIOContext connections)
  released : ℕ

/-- The sessions and the counters of the manager, the variable of `Login`, and for each
thread its `LSendRequestSessionList`. -/
structure Process (workers connections : ℕ) where
  session : ClientId connections → Session connections
  mCurrentConnectCount : ℕ
  mCurrentReturnCount : ℕ
  id : Int32
  requests : Thread workers → List (ClientId connections)
  owner : Lock connections → Option (Thread workers)

/-- What the outside decides for an operation: whether a Winsock call succeeds, and what
is dequeued. -/
structure Input (connections : ℕ) where
  success : Bool
  status : Status connections

/-- Why an operation does not take place; `check` is one of a library. -/
inductive Stop (connections : ℕ) where
  | taken (lock : Lock connections)
  | notInFlight
  | emptyList
  | check
  | crash (assertion : Assertion)

section Sessions

variable {connections : ℕ}

/-- A completion with an error or without bytes. -/
def Failed (ret : Bool) (dwTransferred : ℕ) : Prop :=
  ret = false ∨ dwTransferred = 0

instance (ret : Bool) (dwTransferred : ℕ) : Decidable (Failed ret dwTransferred) :=
  inferInstanceAs (Decidable (_ ∨ _))

/-- No more is transferred than was asked for, and a receive transfers bytes that the peer
sends. -/
def OverlappedIOContext.Reports (context : OverlappedIOContext connections) (packets : List Packet)
    (receive : Client) (dwTransferred : ℕ) : Prop :=
  match context.mIoType with
  | .ioSend => dwTransferred ≤ context.mWsaBuf.len
  | .ioRecv => dwTransferred ≤ context.mWsaBuf.len ∧
      receive.session.mRecvTotal + dwTransferred ≤ (encodeAll packets).length
  | _ => True

instance (context : OverlappedIOContext connections) (packets : List Packet) (receive : Client)
    (dwTransferred : ℕ) : Decidable (context.Reports packets receive dwTransferred) := by
  unfold OverlappedIOContext.Reports
  split <;> infer_instance

/-- A completed receive has filled its window with the next bytes of the peer. -/
def OverlappedIOContext.arrive (context : OverlappedIOContext connections) (packets : List Packet)
    (ret : Bool) (dwTransferred : ℕ) (receive : Client) : Client :=
  match context.mIoType, context.mWsaBuf.buf with
  | .ioRecv, some position =>
      if Failed ret dwTransferred then receive
      else
        let bytes := ((encodeAll packets).drop receive.session.mRecvTotal).take dwTransferred
        ⟨receive.session.deliver position bytes, receive.printed⟩
  | _, _ => receive

/-- A constructed session, on raw blocks. -/
def Session.construct (connections : ℕ) (raw : ℕ → UInt8) (rawSend : ℕ → UInt8) :
    Session connections where
  mRefCount := 0
  mConnected := false
  mSendPendingCount := 0
  mSendBuffer := .construct rawSend DummyClient.DummyClientSession.clientBufSize
  receive := ⟨.connected raw, []⟩
  inFlight := []
  released := 0

/-- The writing of a login under the lock. -/
def Session.writeLogin (session : Session connections) (id : Int32) :
    Option (Bool × Session connections) :=
  (MyPacket.login id ⟨session.mSendBuffer, true, 0⟩).map fun (written, _, sent) =>
    (written, { session with mSendBuffer := sent.mSendBuffer })

end Sessions

namespace Process

variable {workers connections : ℕ}

/-- The process with another value of one session. -/
def setSession (client : ClientId connections) (session : Session connections)
    (process : Process workers connections) : Process workers connections :=
  { process with session := Function.update process.session client session }

/-- The process with a lock taken or left. -/
def setOwner (lock : Lock connections) (owner : Option (Thread workers))
    (process : Process workers connections) : Process workers connections :=
  { process with owner := Function.update process.owner lock owner }

/-- The process with another queue of one thread. -/
def setRequests (thread : Thread workers) (requests : List (ClientId connections))
    (process : Process workers connections) : Process workers connections :=
  { process with requests := Function.update process.requests thread requests }

/-- What an operation of a thread does, where the peers send these packets. -/
def perform (packets : ClientId connections → List Packet) (thread : Thread workers)
    (input : Input connections) : (operation : Operation connections) →
      Process workers connections →
      Except (Stop connections) (operation.Result × Process workers connections)
  | .enterLock lock, process =>
      match process.owner lock with
      | none => .ok ((), process.setOwner lock (some thread))
      | some _ => .error (.taken lock)
  | .leaveLock lock, process => .ok ((), process.setOwner lock none)
  | .isConnected client, process => .ok ((process.session client).mConnected, process)
  | .exchangeConnected client connected, process =>
      .ok ((process.session client).mConnected,
        process.setSession client { process.session client with mConnected := connected })
  | .incrementRefCount client, process =>
      let count := (process.session client).mRefCount + 1
      .ok (count, process.setSession client { process.session client with mRefCount := count })
  | .decrementRefCount client, process =>
      let count := (process.session client).mRefCount - 1
      .ok (count, process.setSession client { process.session client with mRefCount := count })
  | .onRelease client, process =>
      .ok ((), { process.setSession client
          { process.session client with released := (process.session client).released + 1 } with
        mCurrentReturnCount := process.mCurrentReturnCount + 1 })
  | .increaseClientSession, process =>
      .ok ((), { process with mCurrentConnectCount := process.mCurrentConnectCount + 1 })
  | .submit context, process =>
      if input.success then
        let session := process.session context.mSessionObject
        .ok (true, process.setSession context.mSessionObject
          { session with inFlight := session.inFlight ++ [context] })
      else .ok (false, process)
  | .setSockOpt _, process => .ok (input.success, process)
  | .getQueuedCompletionStatus, process =>
      match input.status with
      | .waitTimeout => .ok (.waitTimeout, process)
      | .stopNow => .ok (.stopNow, process)
      | .packet context ret dwTransferred =>
          let client := context.mSessionObject
          let session := process.session client
          if context ∈ session.inFlight ∧ (Failed ret dwTransferred ∨
              context.Reports (packets client) session.receive dwTransferred) then
            .ok (.packet context ret dwTransferred, process.setSession client
              { session with
                receive := context.arrive (packets client) ret dwTransferred session.receive
                inFlight := session.inFlight.erase context })
          else .error .notInFlight
  | .recvBuffer client call, process =>
      let session := process.session client
      let (result, buffer) := session.receive.session.mRecvBuffer.onCall call
      .ok (result, process.setSession client
        { session with receive := { session.receive with
            session := { session.receive.session with mRecvBuffer := buffer } } })
  | .recvCompletion client transferred, process =>
      let session := process.session client
      match session.receive.recvCompletion transferred with
      | some receive =>
          .ok (!receive.session.mConnected,
            process.setSession client { session with receive := receive })
      | none => .error .check
  | .sendBuffer client call, process =>
      let session := process.session client
      let (result, buffer) := session.mSendBuffer.onCall call
      .ok (result, process.setSession client { session with mSendBuffer := buffer })
  | .loadSendPendingCount client, process =>
      .ok ((process.session client).mSendPendingCount, process)
  | .addSendPendingCount client change, process =>
      let count := (process.session client).mSendPendingCount + change
      .ok (count,
        process.setSession client { process.session client with mSendPendingCount := count })
  | .loadId, process => .ok (process.id, process)
  | .storeId id, process => .ok ((), { process with id := id })
  | .writeRequest client id, process =>
      ((process.session client).writeLogin id).elim (.error .check) fun (written, session) =>
        .ok (written, process.setSession client session)
  | .pushRequest client, process =>
      .ok ((), process.setRequests thread (process.requests thread ++ [client]))
  | .frontRequest, process => .ok ((process.requests thread).head?, process)
  | .popRequest, process =>
      match process.requests thread with
      | [] => .error .emptyList
      | _ :: requests => .ok ((), process.setRequests thread requests)
  | .crash assertion, _ => .error (.crash assertion)

end Process

/-! ## The threads -/

/-- Where a thread is between its jobs. -/
inductive Mode where
  | connectSessions
  | disconnectSessions
  | iocpJob
  | sendJob
  | stopped
deriving DecidableEq

section Threads

variable {connections : ℕ}

namespace SessionManager

open Session DummyClientSession

/-- The loop of `ConnectSessions`. -/
def connectAll : List (ClientId connections) → Task connections Bool
  | [] => return true
  | session :: sessions => do
      addRef session
      let requested ← connectRequest session
      if requested then connectAll sessions else return false

/-- `ConnectSessions`. -/
def connectSessions : Task connections Bool :=
  guarded .mLock (connectAll (List.finRange connections))

/-- The loop of `DisconnectSessions`. -/
def disconnectAll : List (ClientId connections) → Task connections Unit
  | [] => return ()
  | session :: sessions => do
      let connected ← isConnected session
      if connected then disconnectRequest session
      disconnectAll sessions

/-- `DisconnectSessions`. -/
def disconnectSessions : Task connections Unit :=
  guarded .mLock (disconnectAll (List.finRange connections))

end SessionManager

namespace WorkerThread

open Session DummyClientSession

/-- The dispatch on `mIoType`. -/
def dispatch (context : OverlappedIOContext connections) (dwTransferred : ℕ) :
    Task connections Bool :=
  match context.mIoType with
  | .ioConnect => do
      connectCompletion context.mSessionObject
      return true
  | .ioDisconnect => do
      disconnectCompletion context.mSessionObject
      return true
  | .ioRecvZero => postRecv context.mSessionObject
  | .ioSend => do
      sendCompletion context.mSessionObject dwTransferred
      return context.mWsaBuf.len = dwTransferred
  | .ioRecv => do
      recvCompletion context.mSessionObject dwTransferred
      preRecv context.mSessionObject
  | .ioNone => crash .ioType

/-- A completion is dispatched and its context closed. -/
def handleCompletion (context : OverlappedIOContext connections) (dwTransferred : ℕ) :
    Task connections Mode := do
  let completionOk ← dispatch context dwTransferred
  if completionOk = false then disconnectRequest context.mSessionObject
  deleteIoContext context
  return .sendJob

/-- A send or receive that failed or transferred nothing. -/
def failCompletion (context : OverlappedIOContext connections) : Task connections Mode := do
  disconnectRequest context.mSessionObject
  deleteIoContext context
  return .sendJob

/-- `DoIocpJob`. -/
def doIocpJob : Task connections Mode := do
  let status ← getQueuedCompletionStatus
  match status with
  | .stopNow => return .stopped
  | .waitTimeout => return .sendJob
  | .packet context ret dwTransferred =>
      if Failed ret dwTransferred ∧ (context.mIoType = .ioRecv ∨ context.mIoType = .ioSend) then
        failCompletion context
      else handleCompletion context dwTransferred

/-- One round of the loop of `DoSendJob`. -/
def doSendJob : Task connections Mode := do
  let front ← frontRequest
  match front with
  | none => return .iocpJob
  | some session => do
      let flushed ← flushSend session
      if flushed then popRequest
      return .sendJob

end WorkerThread

open SessionManager WorkerThread

/-- What a thread runs in a mode. -/
def body {workers : ℕ} : Thread workers → Mode → Task connections Mode
  | some _, .iocpJob => doIocpJob
  | some _, .sendJob => doSendJob
  | none, .connectSessions => do
      let connected ← connectSessions
      return if connected then .disconnectSessions else .stopped
  | none, .disconnectSessions => do
      disconnectSessions
      return .stopped
  | _, mode => return mode

end Threads

section Program

variable (workers : ℕ) {connections : ℕ} (packets : ClientId connections → List Packet)

/-- What the threads run, and what their operations do. -/
def program : Program (Thread workers) Mode (Process workers connections) (Input connections)
    (Stop connections) (@Operation.Result connections) where
  body := body
  perform := Process.perform packets

/-- The process when the sessions have been prepared. -/
def Process.start (raw rawSend : ClientId connections → ℕ → UInt8) :
    Process workers connections where
  session client := .construct connections (raw client) (rawSend client)
  mCurrentConnectCount := 0
  mCurrentReturnCount := 0
  id := 121
  requests _ := []
  owner _ := none

/-- The mode a thread begins in. -/
def Mode.start {workers : ℕ} : Thread workers → Mode
  | none => .connectSessions
  | some _ => .iocpJob

/-- All runs of the dummy clients. -/
def dummyClients :
    Machine (Config (Thread workers) Mode (Process workers connections)
      (@Operation.Result connections)) (Thread workers × Input connections) :=
  (program workers packets).machine
    (fun process => ∃ raw rawSend, process = .start workers raw rawSend) Mode.start

end Program

end Gsp.DummyClients
