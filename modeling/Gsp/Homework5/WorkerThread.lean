import Gsp.Lib.Machine
import Gsp.Homework5.Session

/-!
# The worker threads and the server

`WorkerThread.cpp`, the accepting loop of `ClientSessionManager.cpp`, and the
server as a machine. A step is one iteration of the accepting loop, one
`ConnectRequest`, one completion handled by `DoIocpJob`, or one iteration of
`DoSendJob`. The `IO_RECV` branch of `DoIocpJob` is cut into three steps, so that
other threads may act between `RecvCompletion`, `EchoBack` and `PreRecv`; running
the three in a row is the whole branch.
-/

namespace Gsp.Homework5

namespace SessionScope

/-- The end of `DoIocpJob`. -/
def closeJob (completionOk : Bool) (context : OverlappedIOContext) (winsock : Winsock)
    (scope : SessionScope) : Except CrashAssert SessionScope :=
  if completionOk then scope.deleteIoContext context
  else do
    let scope ← scope.disconnectRequest .drIoRequestError winsock
    scope.deleteIoContext context

/-- A send or receive that failed or transferred nothing. -/
def failJob (context : OverlappedIOContext) (winsock : Winsock) (scope : SessionScope) :
    Except CrashAssert SessionScope := do
  let scope := if context.mIoType = .ioSend then scope.update (.record .sendFailed) else scope
  let scope ← scope.disconnectRequest .drCompletionError winsock
  scope.deleteIoContext context

/-- `DoIocpJob` on a dequeued context; for a receive, up to `RecvCompletion`. -/
def doIocpJob (context : OverlappedIOContext) (completion : Completion) (winsock : Winsock)
    (scope : SessionScope) : Except CrashAssert (Job × SessionScope) :=
  if (completion.ret = false ∨ completion.dwTransferred = 0) ∧
      (context.mIoType = .ioRecv ∨ context.mIoType = .ioSend) then do
    let scope ← scope.failJob context winsock
    .ok (.idle, scope)
  else
    match context.mIoType, scope.self with
    | .ioConnect, .server _ => do
        let scope ← scope.connectCompletion winsock
        let scope ← scope.closeJob true context winsock
        .ok (.idle, scope)
    | .ioDisconnect, _ => do
        let scope ← scope.disconnectCompletion
        let scope ← scope.closeJob true context winsock
        .ok (.idle, scope)
    | .ioAccept, .client _ => do
        let scope ← scope.acceptCompletion winsock
        let scope ← scope.closeJob true context winsock
        .ok (.idle, scope)
    | .ioRecvZero, _ => do
        let (completionOk, scope) ← scope.postRecv winsock
        let scope ← scope.closeJob completionOk context winsock
        .ok (.idle, scope)
    | .ioSend, _ => do
        let scope := scope.update (.sendCompletion context completion.dwTransferred)
        let scope ← scope.closeJob (context.mWsaBuf.len = completion.dwTransferred) context winsock
        .ok (.idle, scope)
    | .ioRecv, _ => .ok (.recvCompleted scope.self context,
        scope.update (.recvCompletion completion))
    | _, _ => .error .doIocpJob

/-- The rest of the `IO_RECV` branch after `EchoBack`. -/
def finishRecv (context : OverlappedIOContext) (winsock : Winsock) (scope : SessionScope) :
    Except CrashAssert SessionScope := do
  let (completionOk, scope) ← scope.preRecv winsock
  scope.closeJob completionOk context winsock

end SessionScope

/-- The sessions, their pool and the workers. -/
structure Server (workers : ℕ) where
  session : SessionId → SessionState
  manager : ClientSessionManager
  worker : Fin workers → Worker

/-- The steps, with what the outside decides for each. -/
inductive Action (workers : ℕ) where
  | acceptClientSession (winsock : Winsock)
  | connectRequest (index : ℕ) (winsock : Winsock)
  | doIocpJob (worker : Fin workers) (session : SessionId) (context : OverlappedIOContext)
      (completion : Completion) (winsock : Winsock)
  | echoBack (worker : Fin workers)
  | finishRecv (worker : Fin workers) (winsock : Winsock)
  | doSendJob (worker : Fin workers) (winsock : Winsock)

/-- A step on this session with another server. -/
def Action.OnServer {workers : ℕ} (index : ℕ) : Action workers → Prop
  | .connectRequest ran _ => ran = index
  | .doIocpJob _ self _ _ _ => self = .server index
  | _ => False

/-- Why there is no next state. -/
inductive Stop where
  | notEnabled
  | crash (session : SessionId) (crashAssert : CrashAssert)
  | emptyFreeList

/-- What may be reported for a context: no more than was asked for, and for a
receive as many bytes as reported. -/
def Completion.Reports (completion : Completion) (context : OverlappedIOContext) : Prop :=
  completion.dwTransferred ≤ context.mWsaBuf.len ∧
    (context.mIoType = .ioRecv → completion.data.length = completion.dwTransferred)

instance (completion : Completion) (context : OverlappedIOContext) :
    Decidable (completion.Reports context) :=
  inferInstanceAs (Decidable (_ ∧ _))

namespace Server

variable {workers : ℕ}

/-- What a function on this session is run on. -/
def scope (server : Server workers) (self : SessionId) : SessionScope :=
  ⟨self, server.session self, server.manager⟩

/-- The server after a function has run on one of its sessions. -/
def leave (server : Server workers) (scope : SessionScope) : Server workers :=
  { server with
    session := Function.update server.session scope.self scope.session
    manager := scope.manager }

/-- The server with another state of one worker. -/
def setWorker (server : Server workers) (index : Fin workers) (worker : Worker) :
    Server workers :=
  { server with worker := Function.update server.worker index worker }

/-- An assertion that fails stops the server. -/
def asserting {Value : Type} (self : SessionId) (result : Except CrashAssert Value) :
    Except Stop Value :=
  result.mapError (.crash self)

/-- One iteration of the loop of `AcceptClientSessions`, with what `PostAccept` returns. -/
def acceptClientSession (winsock : Winsock) (server : Server workers) :
    Except Stop (Bool × Server workers) :=
  if Word.sub64 server.manager.mCurrentIssueCount server.manager.mCurrentReturnCount <
      maxConnection then
    match server.manager.mFreeSessionList with
    | [] => .error .emptyFreeList
    | newClient :: rest => do
        let manager :=
          { server.manager with
            mFreeSessionList := rest
            mCurrentIssueCount := server.manager.mCurrentIssueCount + 1 }
        let scope : SessionScope :=
          ⟨.client newClient, (server.session (.client newClient)).record .issued, manager⟩
        let (posted, scope) ← asserting scope.self
          (scope.addRef >>= SessionScope.postAccept winsock)
        .ok (posted, server.leave scope)
  else .error .notEnabled

/-- `AcceptClientSessions`, given which calls succeed in each iteration. -/
def acceptClientSessions (server : Server workers) : List Winsock →
    Except Stop (Bool × Server workers)
  | [] =>
      if Word.sub64 server.manager.mCurrentIssueCount server.manager.mCurrentReturnCount <
          maxConnection then .error .notEnabled
      else .ok (true, server)
  | winsock :: outcomes => do
      let (posted, server) ← server.acceptClientSession winsock
      if posted then server.acceptClientSessions outcomes else .ok (false, server)

/-- `ConnectRequest` on a session with another server. -/
def connectRequest (index : ℕ) (winsock : Winsock) (server : Server workers) :
    Except Stop (Server workers) := do
  let (_, scope) ← asserting (.server index) ((server.scope (.server index)).connectRequest winsock)
  .ok (server.leave scope)

/-- A worker in `GetQueuedCompletionStatus` gets a completion. -/
def doIocpJob (index : Fin workers) (self : SessionId) (context : OverlappedIOContext)
    (completion : Completion) (winsock : Winsock) (server : Server workers) :
    Except Stop (Server workers) :=
  let worker := server.worker index
  if worker.job = .idle ∧ worker.LSendRequestSessionList = [] ∧
      context ∈ (server.session self).completable ∧ completion.Reports context then do
    let scope := (server.scope self).update (.dequeue context completion)
    let (job, scope) ← asserting self (scope.doIocpJob context completion winsock)
    .ok ((server.leave scope).setWorker index { worker with job := job })
  else .error .notEnabled

/-- The second step of a receive. -/
def echoBack (index : Fin workers) (server : Server workers) : Except Stop (Server workers) :=
  let worker := server.worker index
  match worker.job with
  | .recvCompleted self context =>
      let (queue, session) :=
        (server.session self).echoBack self worker.LSendRequestSessionList
      .ok ((server.leave ⟨self, session, server.manager⟩).setWorker index
        ⟨queue, .echoed self context⟩)
  | _ => .error .notEnabled

/-- The last step of a receive. -/
def finishRecv (index : Fin workers) (winsock : Winsock) (server : Server workers) :
    Except Stop (Server workers) :=
  let worker := server.worker index
  match worker.job with
  | .echoed self context => do
      let scope ← asserting self ((server.scope self).finishRecv context winsock)
      .ok ((server.leave scope).setWorker index { worker with job := .idle })
  | _ => .error .notEnabled

/-- One iteration of the loop of `DoSendJob`. -/
def doSendJob (index : Fin workers) (winsock : Winsock) (server : Server workers) :
    Except Stop (Server workers) :=
  let worker := server.worker index
  match worker.job, worker.LSendRequestSessionList with
  | .idle, request :: rest => do
      let (flushed, scope) ← asserting request.session
        ((server.scope request.session).flushSend winsock)
      .ok ((server.leave scope).setWorker index
        { worker with LSendRequestSessionList := if flushed then rest else request :: rest })
  | _, _ => .error .notEnabled

/-- The effect of a step, if there is one. -/
def step (server : Server workers) : Action workers → Except Stop (Server workers)
  | .acceptClientSession winsock => (server.acceptClientSession winsock).map Prod.snd
  | .connectRequest index winsock => server.connectRequest index winsock
  | .doIocpJob worker session context completion winsock =>
      server.doIocpJob worker session context completion winsock
  | .echoBack worker => server.echoBack worker
  | .finishRecv worker winsock => server.finishRecv worker winsock
  | .doSendJob worker winsock => server.doSendJob worker winsock

/-- The effect of several steps. -/
def runs (server : Server workers) : List (Action workers) → Except Stop (Server workers) :=
  Machine.follow step server

end Server

/-- The free list after `count` iterations of `PrepareClientSessions`. -/
def prepareClientSessions : (count : ℕ) → count ≤ maxConnection → List ClientId
  | 0, _ => []
  | count + 1, le => ⟨count, le⟩ :: prepareClientSessions count (Nat.le_of_succ_le le)

/-- The raw blocks the buffers of the sessions are allocated in. -/
structure RawMemory where
  recv : SessionId → ℕ → UInt8
  send : SessionId → ℕ → UInt8

/-- The capacity of the buffers of a session. -/
def bufSize : SessionId → ℕ
  | .client _ => clientBufSize
  | .server _ => serverBufSize

/-- The server when the sessions have been prepared and no worker has run. -/
def Server.start (workers : ℕ) (raw : RawMemory) : Server workers where
  session self :=
    { Session.construct (raw.recv self) (raw.send self) (bufSize self) with
      attached := false
      inFlight := []
      handled := []
      trace := [] }
  manager := ⟨prepareClientSessions maxConnection (Nat.le_refl _), 0, 0⟩
  worker _ := ⟨[], .idle⟩

/-- The server with its workers, started on any raw memory. -/
def machine (workers : ℕ) : Machine (Server workers) (Action workers) where
  Initial server := ∃ raw, server = .start workers raw
  Step before action after := before.step action = .ok after

/-! ## Functions in one go -/

/-- A call of the main thread, a completion handled by a worker, or one iteration
of its `DoSendJob`. -/
inductive Call (workers : ℕ) where
  | acceptClientSessions (outcomes : List Winsock)
  | connectRequest (index : ℕ) (winsock : Winsock)
  | doIocpJob (worker : Fin workers) (session : SessionId) (context : OverlappedIOContext)
      (completion : Completion) (winsock : Winsock)
  | doSendJob (worker : Fin workers) (winsock : Winsock)

namespace Server

variable {workers : ℕ}

/-- `DoIocpJob` with its whole `IO_RECV` branch. -/
def wholeJob (worker : Fin workers) (self : SessionId) (context : OverlappedIOContext)
    (completion : Completion) (winsock : Winsock) (server : Server workers) :
    Except Stop (Server workers) := do
  let server ← server.doIocpJob worker self context completion winsock
  match (server.worker worker).job with
  | .idle => .ok server
  | _ => do
      let server ← server.echoBack worker
      server.finishRecv worker winsock

/-- The effect of a whole function. -/
def call (server : Server workers) : Call workers → Except Stop (Server workers)
  | .acceptClientSessions outcomes => (server.acceptClientSessions outcomes).map Prod.snd
  | .connectRequest index winsock => server.connectRequest index winsock
  | .doIocpJob worker session context completion winsock =>
      server.wholeJob worker session context completion winsock
  | .doSendJob worker winsock => server.doSendJob worker winsock

/-- A call of `AcceptClientSessions` returns true. -/
def Accepts (server : Server workers) : Call workers → Prop
  | .acceptClientSessions outcomes =>
      ∃ after, server.acceptClientSessions outcomes = .ok (true, after)
  | _ => True

end Server

/-- The server, each function taken as one step. -/
def callMachine (workers : ℕ) : Machine (Server workers) (Call workers) where
  Initial server := ∃ raw, server = .start workers raw
  Step before call after := before.call call = .ok after

end Gsp.Homework5
