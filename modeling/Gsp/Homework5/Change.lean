import Gsp.Homework5.Outgoing

/-!
# What a step does to the server

`Change` lists the steps of a safe server with the state each leads to. On client
sessions no function stops at an assertion, so each step of theirs is given by an
equation.
-/

namespace Gsp.Homework5

namespace SessionState

variable {session : SessionState} {context : OverlappedIOContext}

/-- `DoIocpJob` from the completion on, up to the final `DeleteIoContext`. -/
def complete (context : OverlappedIOContext) (completion : Completion) (winsock : Winsock)
    (session : SessionState) : SessionState :=
  (session.dequeue context completion).handle context completion winsock

theorem held_of_positive (settled : session.Settled) (positive : 0 < session.mRefCount) :
    session.Held := by
  have bounds := settled.balanced.bounds (by simp [account])
  simp only [account] at bounds
  exact ⟨positive, by omega⟩

/-- A context holds its session. -/
theorem held_of_live (settled : session.Settled) (contextMem : context ∈ session.live) :
    session.Held := by
  apply held_of_positive settled
  have references := references_eq settled.balanced
  have some := List.length_pos_of_mem contextMem
  omega

theorem issueRef_of_connected (settled : session.Settled) (connected : session.mConnected = true) :
    issueRef session.trace = 1 := by
  have flag := connected_account none connected
  have support := settled.balanced.support
  have flags := settled.balanced.flags
  have roles := settled.balanced.roles
  rw [flag] at support
  simp only [account] at support flags roles
  omega

/-- A connection holds its session. -/
theorem held_of_connected (settled : session.Settled) (connected : session.mConnected = true) :
    session.Held := by
  apply held_of_positive settled
  have reference := issueRef_of_connected settled connected
  have references := references_eq settled.balanced
  omega

/-- A session in the pool has no references. -/
theorem unreferenced_of_free (settled : session.Settled) (free : issued session.trace = false) :
    session.mRefCount = 0 :=
  settled.balanced.free free

/-- The issue reference is still there when a disconnect completes. -/
theorem closing_of_disconnect (settled : session.Settled) (contextMem : context ∈ session.live)
    (kind : context.mIoType = .ioDisconnect) : 1 < session.mRefCount := by
  have positive := role_pos contextMem
  have support := settled.balanced.support
  have flags := settled.balanced.flags
  have roles := settled.balanced.roles
  have references := references_eq settled.balanced
  have some := List.length_pos_of_mem contextMem
  rw [kind] at positive
  simp only [account] at support flags roles
  omega

end SessionState

namespace Server

open SessionState SessionScope

variable {workers : ℕ}

/-- The steps of a safe server and where each leads. -/
inductive Change (server : Server workers) : Action workers → Server workers → Prop where
  | issue {client : ClientId} {rest : List ClientId} (winsock : Winsock)
      (taken : server.manager.mFreeSessionList = client :: rest) :
      Change server (.acceptClientSession winsock)
        (server.leave ⟨.client client, (server.session (.client client)).issue winsock,
          { server.manager with
            mFreeSessionList := rest
            mCurrentIssueCount := server.manager.mCurrentIssueCount + 1 }⟩)
  | outgoing {action : Action workers} {index : ℕ} {session : SessionState}
      (acts : action.OnServer index) (outgoing : session.Outgoing)
      (opened : session.mConnected = true →
        (server.session (.server index)).mConnected = true ∨
          ∃ worker context completion winsock,
            action = .doIocpJob worker (.server index) context completion winsock ∧
              context.mIoType = .ioConnect ∧ winsock.updateConnectContext = true) :
      Change server action (server.leave ⟨.server index, session, server.manager⟩)
  | handle {worker : Fin workers} {client : ClientId} {context : OverlappedIOContext}
      {completion : Completion} (winsock : Winsock)
      (idle : (server.worker worker).job = .idle)
      (flushed : (server.worker worker).LSendRequestSessionList = [])
      (inFlight : context ∈ (server.session (.client client)).inFlight)
      (reports : completion.Reports context) (notArrives : ¬Arrives context completion) :
      Change server (.doIocpJob worker (.client client) context completion winsock)
        (server.leave ⟨.client client,
          ((server.session (.client client)).complete context completion winsock).discard context,
          repool client ((server.session (.client client)).complete context completion winsock)
            server.manager⟩)
  | receive {worker : Fin workers} {client : ClientId} {context : OverlappedIOContext}
      {completion : Completion} (winsock : Winsock)
      (idle : (server.worker worker).job = .idle)
      (flushed : (server.worker worker).LSendRequestSessionList = [])
      (inFlight : context ∈ (server.session (.client client)).inFlight)
      (reports : completion.Reports context) (arrives : Arrives context completion) :
      Change server (.doIocpJob worker (.client client) context completion winsock)
        ((server.leave ⟨.client client, ((server.session (.client client)).dequeue context
          completion).recvCompletion completion, server.manager⟩).setWorker worker
            ⟨[], .recvCompleted (.client client) context⟩)
  | echo {worker : Fin workers} {client : ClientId} {context : OverlappedIOContext}
      (atWork : (server.worker worker).job = .recvCompleted (.client client) context) :
      Change server (.echoBack worker)
        ((server.leave ⟨.client client, ((server.session (.client client)).echoBack (.client client)
          (server.worker worker).LSendRequestSessionList).2, server.manager⟩).setWorker worker
            ⟨((server.session (.client client)).echoBack (.client client)
              (server.worker worker).LSendRequestSessionList).1, .echoed (.client client) context⟩)
  | finish {worker : Fin workers} {client : ClientId} {context : OverlappedIOContext}
      (winsock : Winsock)
      (atWork : (server.worker worker).job = .echoed (.client client) context) :
      Change server (.finishRecv worker winsock)
        ((server.leave ⟨.client client,
          ((server.session (.client client)).finish winsock).discard context,
          repool client ((server.session (.client client)).finish winsock)
            server.manager⟩).setWorker worker
            ⟨(server.worker worker).LSendRequestSessionList, .idle⟩)
  | flush {worker : Fin workers} {client : ClientId} {connection : ℕ} {rest : List SendRequest}
      (winsock : Winsock) (idle : (server.worker worker).job = .idle)
      (front : (server.worker worker).LSendRequestSessionList =
        ⟨.client client, connection⟩ :: rest) :
      Change server (.doSendJob worker winsock)
        ((server.leave ⟨.client client, ((server.session (.client client)).flush winsock).2,
          server.manager⟩).setWorker worker
            ⟨if ((server.session (.client client)).flush winsock).1 then rest
              else ⟨.client client, connection⟩ :: rest, .idle⟩)

/-- A step of a safe server is one of the changes, is not enabled, or stops at an
assertion of a session with another server. -/
inductive Outcome (server : Server workers) (action : Action workers) :
    Except Stop (Server workers) → Prop where
  | change {after : Server workers} (change : Change server action after) :
      Outcome server action (.ok after)
  | notEnabled : Outcome server action (.error .notEnabled)
  | crash {index : ℕ} {crashAssert : CrashAssert} (acts : action.OnServer index) :
      Outcome server action (.error (.crash (.server index) crashAssert))

variable {server after : Server workers}

@[simp]
theorem asserting_ok {Value : Type} (self : SessionId) (value : Value) :
    asserting self (.ok value) = .ok value := rfl

theorem asserting_eq_ok {Value : Type} {self : SessionId} {result : Except CrashAssert Value}
    {value : Value} : asserting self result = .ok value ↔ result = .ok value := by
  cases result <;> simp [asserting, Except.mapError]

theorem doIocpJob_arrives {self : SessionId} {session : SessionState}
    {manager : ClientSessionManager} {context : OverlappedIOContext} {completion : Completion}
    (arrives : Arrives context completion) (winsock : Winsock) :
    SessionScope.doIocpJob context completion winsock ⟨self, session, manager⟩ =
      .ok (.recvCompleted self context, ⟨self, session.recvCompletion completion, manager⟩) := by
  rcases arrives with ⟨kind, success⟩
  have notFailed : ¬((completion.ret = false ∨ completion.dwTransferred = 0) ∧
      (context.mIoType = .ioRecv ∨ context.mIoType = .ioSend)) := fun failed => success failed.1
  rw [SessionScope.doIocpJob, if_neg notFailed]
  simp only [kind, update_mk]

theorem doIocpJob_receive {worker : Fin workers} {client : ClientId}
    {context : OverlappedIOContext} {completion : Completion}
    (idle : (server.worker worker).job = .idle)
    (flushed : (server.worker worker).LSendRequestSessionList = [])
    (completes : context ∈ (server.session (.client client)).completable)
    (reports : completion.Reports context) (arrives : Arrives context completion)
    (winsock : Winsock) :
    server.doIocpJob worker (.client client) context completion winsock =
      .ok ((server.leave ⟨.client client, ((server.session (.client client)).dequeue context
        completion).recvCompletion completion, server.manager⟩).setWorker worker
          ⟨[], .recvCompleted (.client client) context⟩) := by
  have enabled : (server.worker worker).job = .idle ∧
      (server.worker worker).LSendRequestSessionList = [] ∧
      context ∈ (server.session (.client client)).completable ∧ completion.Reports context :=
    ⟨idle, flushed, completes, reports⟩
  simp only [Server.doIocpJob, if_pos enabled, scope, update_mk, doIocpJob_arrives arrives,
    asserting_ok, Except.ok_bind]
  rw [flushed]

namespace Safe

/-- The next session is issued. -/
theorem acceptClientSession_eq (safe : server.Safe) {client : ClientId} {rest : List ClientId}
    (taken : server.manager.mFreeSessionList = client :: rest) (winsock : Winsock) :
    server.acceptClientSession winsock =
      .ok (winsock.acceptEx,
        server.leave ⟨.client client, (server.session (.client client)).issue winsock,
          { server.manager with
            mFreeSessionList := rest
            mCurrentIssueCount := server.manager.mCurrentIssueCount + 1 }⟩) := by
  have free : issued (server.session (.client client)).trace = false := by
    rw [← safe.free, taken]
    exact List.mem_cons_self
  have unreferenced := unreferenced_of_free (safe.settled client) free
  have guard := safe.guard_eq
  have positive : 0 < maxConnection := by decide
  have open_ : Word.sub64 server.manager.mCurrentIssueCount server.manager.mCurrentReturnCount <
      maxConnection := by
    rw [guard, taken, List.length_cons]
    omega
  simp only [acceptClientSession, if_pos open_, taken, issue_eq unreferenced winsock, asserting_ok,
    Except.ok_bind]

/-- With an empty pool the accepting loop ends. -/
theorem acceptClientSession_full (safe : server.Safe)
    (empty : server.manager.mFreeSessionList = []) (winsock : Winsock) :
    server.acceptClientSession winsock = .error .notEnabled := by
  have guard := safe.guard_eq
  have closed : ¬Word.sub64 server.manager.mCurrentIssueCount server.manager.mCurrentReturnCount <
      maxConnection := by
    rw [guard, empty, List.length_nil]
    omega
  simp only [acceptClientSession, if_neg closed]

section Client

variable {client : ClientId} {context : OverlappedIOContext} {completion : Completion}

/-- `DoIocpJob` on a session that is being handled. -/
theorem complete_eq (safe : server.Safe)
    (inFlight : context ∈ (server.session (.client client)).inFlight)
    (reports : completion.Reports context) (notArrives : ¬Arrives context completion)
    (winsock : Winsock) :
    SessionScope.doIocpJob context completion winsock ⟨.client client,
      (server.session (.client client)).dequeue context completion, server.manager⟩ =
      .ok (.idle, ⟨.client client,
        ((server.session (.client client)).complete context completion winsock).discard context,
        repool client ((server.session (.client client)).complete context completion winsock)
          server.manager⟩) := by
  have settled := settled_dequeue (safe.settled client) inFlight completion
  have handled : context ∈ ((server.session (.client client)).dequeue context completion).handled :=
    List.mem_cons_self
  have contextMem := List.mem_append_right
    ((server.session (.client client)).dequeue context completion).inFlight handled
  have echoing := (safe.clients client).echoing.quiet (Quiet.dequeue reports notArrives _)
  have notReceived := notReceived_of_notArrives notArrives
  rcases handle_settled settled handled winsock notReceived with ⟨⟨balanced, _⟩, _⟩
  apply doIocpJob_eq (held_of_live settled contextMem) echoing.recvBuffer
  · exact known_of_mem settled.balanced contextMem
  · exact notReceived
  · intro kind
    exact (spend_accept settled contextMem kind).1
  · intro kind
    exact closing_of_disconnect settled contextMem kind
  · exact held_of_balanced balanced
  · exact closed_of_last balanced

/-- A handled completion ends with its context discarded. -/
theorem doIocpJob_eq (safe : server.Safe) {worker : Fin workers}
    (idle : (server.worker worker).job = .idle)
    (flushed : (server.worker worker).LSendRequestSessionList = [])
    (completes : context ∈ (server.session (.client client)).completable)
    (reports : completion.Reports context) (notArrives : ¬Arrives context completion)
    (winsock : Winsock) :
    server.doIocpJob worker (.client client) context completion winsock =
      .ok (server.leave ⟨.client client,
        ((server.session (.client client)).complete context completion winsock).discard context,
        repool client ((server.session (.client client)).complete context completion winsock)
          server.manager⟩) := by
  have same : { server.worker worker with job := Job.idle } = server.worker worker := by
    rw [← idle]
  have enabled : (server.worker worker).job = .idle ∧
      (server.worker worker).LSendRequestSessionList = [] ∧
      context ∈ (server.session (.client client)).completable ∧ completion.Reports context :=
    ⟨idle, flushed, completes, reports⟩
  simp only [Server.doIocpJob, if_pos enabled, scope, update_mk,
    safe.complete_eq (inFlight_of_completable completes) reports notArrives winsock, asserting_ok,
    Except.ok_bind, same]
  simp only [leave, setWorker, Function.update_eq_self]

theorem finishRecv_eq (safe : server.Safe) {worker : Fin workers}
    (atWork : (server.worker worker).job = .echoed (.client client) context) (winsock : Winsock) :
    server.finishRecv worker winsock =
      .ok ((server.leave ⟨.client client,
        ((server.session (.client client)).finish winsock).discard context,
        repool client ((server.session (.client client)).finish winsock)
          server.manager⟩).setWorker worker
          ⟨(server.worker worker).LSendRequestSessionList, .idle⟩) := by
  have working : (server.worker worker).job.working = some (.client client, context) := by
    rw [atWork]
    rfl
  rcases safe.working worker _ _ working with ⟨kind, handled, _⟩
  have settled := safe.settled client
  have contextMem := List.mem_append_right (server.session (.client client)).inFlight handled
  rcases finish_settled settled handled kind winsock with ⟨⟨balanced, _⟩, _⟩
  have known := (known_of_mem settled.balanced contextMem).1
  simp only [Server.finishRecv, atWork, scope,
    SessionScope.finishRecv_eq (held_of_live settled contextMem) known (held_of_balanced balanced)
      (closed_of_last balanced), asserting_ok, Except.ok_bind]

theorem doSendJob_eq (safe : server.Safe) {worker : Fin workers} {connection : ℕ}
    {rest : List SendRequest} (idle : (server.worker worker).job = .idle)
    (front : (server.worker worker).LSendRequestSessionList =
      ⟨.client client, connection⟩ :: rest) (winsock : Winsock) :
    server.doSendJob worker winsock =
      .ok ((server.leave ⟨.client client, ((server.session (.client client)).flush winsock).2,
        server.manager⟩).setWorker worker
          ⟨if ((server.session (.client client)).flush winsock).1 then rest
            else ⟨.client client, connection⟩ :: rest, .idle⟩) := by
  have held := held_of_connected (safe.settled client)
  simp only [Server.doSendJob, idle, front, scope, flushSend_eq held, asserting_ok, Except.ok_bind]

end Client

/-! ## The steps of a safe server -/

theorem outcome_acceptClientSession (safe : server.Safe) (winsock : Winsock) :
    Outcome server (.acceptClientSession winsock) (server.step (.acceptClientSession winsock)) := by
  simp only [Server.step]
  cases taken : server.manager.mFreeSessionList with
  | nil =>
      rw [safe.acceptClientSession_full taken]
      exact .notEnabled
  | cons client rest =>
      rw [safe.acceptClientSession_eq taken]
      exact .change (.issue winsock taken)

theorem outcome_connectRequest (safe : server.Safe) (index : ℕ) (winsock : Winsock) :
    Outcome server (.connectRequest index winsock)
      (server.step (.connectRequest index winsock)) := by
  have acts : @Action.OnServer workers index (.connectRequest index winsock) := rfl
  simp only [Server.step, Server.connectRequest]
  cases result : (server.scope (.server index)).connectRequest winsock with
  | error crashAssert => exact .crash acts
  | ok value =>
      rcases value with ⟨requested, self, session, manager⟩
      rcases connectRequest_ok (safe.servers index) result with ⟨ofServer, sameManager, still, same⟩
      simp only at ofServer sameManager same
      subst ofServer sameManager
      apply Outcome.change
      apply Change.outgoing acts still
      intro connected
      left
      rw [← same]
      exact connected

theorem outcome_doIocpJob (safe : server.Safe) (worker : Fin workers) (self : SessionId)
    (context : OverlappedIOContext) (completion : Completion) (winsock : Winsock) :
    Outcome server (.doIocpJob worker self context completion winsock)
      (server.step (.doIocpJob worker self context completion winsock)) := by
  simp only [Server.step]
  by_cases enabled : (server.worker worker).job = .idle ∧
      (server.worker worker).LSendRequestSessionList = [] ∧
      context ∈ (server.session self).completable ∧ completion.Reports context
  · have parts := enabled
    rcases parts with ⟨idle, flushed, completes, reports⟩
    have inFlight := inFlight_of_completable completes
    cases self with
    | client client =>
        by_cases arrives : Arrives context completion
        · rw [doIocpJob_receive idle flushed completes reports arrives]
          exact .change (.receive winsock idle flushed inFlight reports arrives)
        · rw [safe.doIocpJob_eq idle flushed completes reports arrives]
          exact .change (.handle winsock idle flushed inFlight reports arrives)
    | server index =>
        have acts : Action.OnServer index (.doIocpJob worker (.server index) context completion
            winsock) := rfl
        have outgoing := safe.servers index
        have kind := outgoing.connecting context (List.mem_append_left _ inFlight)
        simp only [Server.doIocpJob, if_pos enabled, scope, update_mk]
        cases result : SessionScope.doIocpJob context completion winsock ⟨.server index,
          (server.session (.server index)).dequeue context completion, server.manager⟩ with
        | error crashAssert => exact .crash acts
        | ok value =>
            rcases value with ⟨job, self, session, manager⟩
            rcases doIocpJob_ok (outgoing_dequeue outgoing inFlight completion) kind result with
              ⟨rfl, ofServer, sameManager, still, opened⟩
            simp only at ofServer sameManager
            subst ofServer sameManager
            have same : { server.worker worker with job := Job.idle } = server.worker worker := by
              rw [← idle]
            simp only [asserting_ok, Except.ok_bind, same, leave, setWorker,
              Function.update_eq_self]
            apply Outcome.change
            apply Change.outgoing acts still
            intro connected
            rcases opened connected with wasConnected | updated
            · exact Or.inl wasConnected
            · exact Or.inr ⟨worker, context, completion, winsock, rfl, kind, updated⟩
  · simp only [Server.doIocpJob, if_neg enabled]
    exact .notEnabled

theorem outcome_echoBack (safe : server.Safe) (worker : Fin workers) :
    Outcome server (.echoBack worker) (server.step (.echoBack worker)) := by
  simp only [Server.step, Server.echoBack]
  split
  · next self context atWork =>
      rcases safe.working worker _ _ (congrArg Job.working atWork) with ⟨_, _, client, rfl⟩
      exact .change (.echo atWork)
  · exact .notEnabled

theorem outcome_finishRecv (safe : server.Safe) (worker : Fin workers) (winsock : Winsock) :
    Outcome server (.finishRecv worker winsock) (server.step (.finishRecv worker winsock)) := by
  simp only [Server.step]
  cases atWork : (server.worker worker).job with
  | echoed self context =>
      rcases safe.working worker _ _ (congrArg Job.working atWork) with ⟨_, _, client, rfl⟩
      rw [safe.finishRecv_eq atWork]
      exact .change (.finish winsock atWork)
  | idle =>
      simp only [Server.finishRecv, atWork]
      exact .notEnabled
  | recvCompleted self context =>
      simp only [Server.finishRecv, atWork]
      exact .notEnabled

theorem outcome_doSendJob (safe : server.Safe) (worker : Fin workers) (winsock : Winsock) :
    Outcome server (.doSendJob worker winsock) (server.step (.doSendJob worker winsock)) := by
  simp only [Server.step]
  by_cases idle : (server.worker worker).job = .idle
  · cases front : (server.worker worker).LSendRequestSessionList with
    | nil =>
        simp only [Server.doSendJob, idle, front]
        exact .notEnabled
    | cons request rest =>
        rcases request with ⟨self, connection⟩
        rcases safe.queued worker ⟨self, connection⟩ (by rw [front]; exact List.mem_cons_self)
          with ⟨client, ofClient⟩
        simp only at ofClient
        subst ofClient
        rw [safe.doSendJob_eq idle front]
        exact .change (.flush winsock idle front)
  · simp only [Server.doSendJob]
    split
    · next idleNow _ => exact absurd idleNow idle
    · exact .notEnabled

/-- No step of a safe server fails an assertion on a client session. -/
theorem outcome_of_step (safe : server.Safe) (action : Action workers) :
    Outcome server action (server.step action) := by
  cases action with
  | acceptClientSession winsock => exact safe.outcome_acceptClientSession winsock
  | connectRequest index winsock => exact safe.outcome_connectRequest index winsock
  | doIocpJob worker self context completion winsock =>
      exact safe.outcome_doIocpJob worker self context completion winsock
  | echoBack worker => exact safe.outcome_echoBack worker
  | finishRecv worker winsock => exact safe.outcome_finishRecv worker winsock
  | doSendJob worker winsock => exact safe.outcome_doSendJob worker winsock

/-- A step of a safe server is one of those listed. -/
theorem change_of_step (safe : server.Safe) {action : Action workers}
    (step : server.step action = .ok after) : Change server action after := by
  have outcome := safe.outcome_of_step action
  rw [step] at outcome
  cases outcome with
  | change change => exact change

/-- No assertion fails on a client session, and the free list is not found empty. -/
theorem stop_of_step (safe : server.Safe) {action : Action workers} {stop : Stop}
    (step : server.step action = .error stop) :
    stop = .notEnabled ∨ ∃ index crashAssert, stop = .crash (.server index) crashAssert := by
  have outcome := safe.outcome_of_step action
  rw [step] at outcome
  cases outcome with
  | notEnabled => exact Or.inl rfl
  | @crash index crashAssert _ => exact Or.inr ⟨index, crashAssert, rfl⟩

end Safe

end Server

end Gsp.Homework5
