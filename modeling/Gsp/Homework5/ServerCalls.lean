import Gsp.Homework5.SessionCalls

/-!
# The calls of the server without interruption

Each call of the server is, in the server cut into operations, a run in which only
the thread of the call acts. So what a sequence of calls leads to is also reached
there, with all locks free.
-/

namespace Gsp.Homework5

open Locking Server

variable {workers : ℕ}

/-- The thread that makes a call. -/
def Call.thread : Call workers → Thread workers
  | .acceptClientSessions _ => .main
  | .connectRequest index _ => .connecting index
  | .doIocpJob worker _ _ _ _ => .worker worker
  | .doSendJob worker _ => .worker worker

namespace Locking

open Program

variable {server after : Server workers} {owner : Lock → Option (Thread workers)}
  {state : State workers} {config : Running workers} {thread : Thread workers}

/-- The queues of the workers as the operations see them. -/
def queues (server : Server workers) (worker : Fin workers) : List SessionId :=
  (server.worker worker).LSendRequestSessionList.map SendRequest.session

/-- No lock is taken. -/
def unlocked (_ : Lock) : Option (Thread workers) := none

theorem open_unlocked (self : SessionId) : Open (unlocked : Lock → Option (Thread workers)) self :=
  ⟨rfl, rfl⟩

theorem poolsOpen_unlocked : PoolsOpen (unlocked : Lock → Option (Thread workers)) :=
  fun _ => rfl

/-- The state of this server, with these locks taken. -/
structure Reflects (owner : Lock → Option (Thread workers)) (server : Server workers)
    (state : State workers) : Prop where
  mirrors : Mirrors server.session server.manager state
  owner : state.owner = owner
  requests : state.LSendRequestSessionList = queues server

/-- Between two calls no lock is taken. A worker that has not handled anything yet has
nothing to send. -/
structure Between (server : Server workers) (config : Running workers) : Prop where
  reflects : Reflects unlocked server config.state
  main : config.code .main = .done .accept
  connecting : ∀ index, config.code (.connecting index) = .done .connect
  worker : ∀ worker, config.code (.worker worker) = .done .sendJob ∨
    config.code (.worker worker) = .done .iocpJob ∧
      (server.worker worker).LSendRequestSessionList = []

/-- A reflected server is one in which every session stands. -/
theorem Reflects.stands (reflects : Reflects owner server state) (self : SessionId) :
    Stands server.session owner (queues server) (server.scope self) state := by
  refine ⟨?_, reflects.owner, reflects.requests⟩
  simp only [Server.scope, Function.update_eq_self]
  exact reflects.mirrors

/-- The server after a function on one of its sessions. -/
theorem Stands.reflects {scope : SessionScope} {requests : Fin workers → List SessionId}
    (stands : Stands server.session owner requests scope state)
    (session : after.session = (server.leave scope).session)
    (manager : after.manager = (server.leave scope).manager) (sent : queues after = requests) :
    Reflects owner after state := by
  refine ⟨?_, stands.owner, stands.requests.trans sent.symm⟩
  rw [session, manager]
  exact stands.mirrors

/-- A thread runs its next code to the end. -/
theorem exists_run_of_carries {holds left : State workers → Prop} {mode next : Mode}
    (about : config.code thread = .done mode)
    (carries : (program workers).Carries thread holds (body thread mode) next left)
    (now : holds config.state) :
    ∃ steps last, (lockingServer workers).Run config steps
        ⟨last, Function.update config.code thread (.done next)⟩ ∧
      (∀ step ∈ steps, step.2.1 = thread) ∧ left last := by
  rcases carries config.state now with ⟨last, completes, kept⟩
  rcases completes.runBody .silent about with ⟨steps, run, own⟩
  exact ⟨steps, last, run, own, kept⟩

/-- On its own the thread leads the server from one state between calls to another. -/
def Leads (thread : Thread workers) (server after : Server workers) : Prop :=
  ∀ config, Between server config → ∃ steps last, (lockingServer workers).Run config steps last ∧
    (∀ step ∈ steps, step.2.1 = thread) ∧ Between after last

/-- `ConnectRequest` runs through without interruption. -/
theorem leads_connectRequest {index : ℕ} {winsock : Winsock}
    (ran : server.connectRequest index winsock = .ok after) :
    Leads (.connecting index) server after := by
  intro config between
  rcases Except.bind_eq_ok.mp ran with ⟨⟨result, scope⟩, asserted, rest⟩
  cases rest
  have does : Does (.connecting index) server.session unlocked (queues server)
      (server.scope (.server index)) (connectRequest index) result scope :=
    does_connectRequest rfl poolsOpen_unlocked (open_unlocked _) (asserting_eq_ok.mp asserted)
  have code : (program workers).Carries (.connecting index)
      (Stands server.session unlocked (queues server) (server.scope (.server index)))
      (body (.connecting index : Thread workers) .connect) .connect
      (Stands server.session unlocked (queues server) scope) :=
    (does.bind (does_pure Mode.connect)).carries
  rcases exists_run_of_carries (between.connecting index) code
    (between.reflects.stands (.server index)) with ⟨steps, last, run, own, stands⟩
  refine ⟨steps, _, run, own, ?_⟩
  have same : Function.update config.code (.connecting index) (.done .connect) = config.code := by
    rw [← between.connecting index, Function.update_eq_self]
  rw [same]
  exact { between with reflects := stands.reflects rfl rfl rfl }

/-! ## Worker threads -/

/-- A worker is between two jobs when its turn ends. -/
theorem Between.ofWorker (between : Between server config) {worker : Fin workers} {mode : Mode}
    (reflects : Reflects unlocked after state)
    (ended : mode = .sendJob ∨
      mode = .iocpJob ∧ (after.worker worker).LSendRequestSessionList = [])
    (others : ∀ other, other ≠ worker → after.worker other = server.worker other) :
    Between after ⟨state, Function.update config.code (.worker worker) (.done mode)⟩ where
  reflects := reflects
  main := by
    have ne : (.main : Thread workers) ≠ .worker worker := by simp
    simp only [Function.update_of_ne ne, between.main]
  connecting index := by
    have ne : (.connecting index : Thread workers) ≠ .worker worker := by simp
    simp only [Function.update_of_ne ne, between.connecting index]
  worker other := by
    by_cases same : other = worker
    · subst same
      simpa only [Function.update_self, Code.done.injEq] using ended
    · rw [others other same]
      have ne : (.worker other : Thread workers) ≠ .worker worker := by simpa using same
      simp only [Function.update_of_ne ne]
      exact between.worker other

theorem queues_setWorker (server : Server workers) (worker : Fin workers) (value : Worker) :
    queues (server.setWorker worker value) =
      Function.update (queues server) worker
        (value.LSendRequestSessionList.map SendRequest.session) := by
  funext other
  by_cases same : other = worker
  · subst same
    simp [queues, Server.setWorker]
  · simp [queues, Server.setWorker, same]

/-- A worker reads the front of its own list. -/
theorem carries_frontSendRequest {worker : Fin workers} {sessions : SessionId → SessionState}
    {requests : Fin workers → List SessionId} {scope : SessionScope} :
    (program workers).Carries (.worker worker) (Stands sessions owner requests scope)
      (act .frontSendRequest) (requests worker).head? (Stands sessions owner requests scope) := by
  refine carries_perform fun state stands => ⟨.silent, state, ?_, stands⟩
  simp only [program, State.perform, stands.requests]

/-- A worker takes the front off its own list. -/
theorem carries_popSendRequest {worker : Fin workers} {sessions : SessionId → SessionState}
    {requests : Fin workers → List SessionId} {scope : SessionScope} :
    (program workers).Carries (.worker worker) (Stands sessions owner requests scope)
      (act .popSendRequest) ()
      (Stands sessions owner (Function.update requests worker (requests worker).tail) scope) := by
  refine carries_perform fun state stands => ⟨.silent, _, rfl, ?_⟩
  rw [stands.requests]
  exact stands.setSendRequests worker _

/-- A turn of `DoSendJob` runs through without interruption. -/
theorem leads_doSendJob {worker : Fin workers} {winsock : Winsock}
    (reachable : (machine workers).Reachable server)
    (ran : server.doSendJob worker winsock = .ok after) :
    Leads (.worker worker) server after := by
  intro config between
  simp only [Server.doSendJob] at ran
  split at ran
  case h_2 => cases ran
  case h_1 request rest _ queue =>
    rcases Except.bind_eq_ok.mp ran with ⟨⟨flushed, scope⟩, asserted, left⟩
    cases left
    have safe := safe_of_reachable reachable
    have requestMem : request ∈ (server.worker worker).LSendRequestSessionList := by
      rw [queue]
      exact List.mem_cons_self
    have held : (server.session request.session).mConnected = true →
        (server.session request.session).Held := by
      rcases safe.queued worker request requestMem with ⟨client, same⟩
      rw [same]
      exact SessionState.held_of_connected (safe.settled client)
    have mode : config.code (.worker worker) = .done .sendJob := by
      rcases between.worker worker with busy | ⟨_, empty⟩
      · exact busy
      · rw [queue] at empty
        cases empty
    have does : Does (.worker worker) server.session unlocked (queues server)
        (server.scope request.session) (flushSend request.session) flushed scope :=
      does_flushSend rfl poolsOpen_unlocked (open_unlocked _) held (asserting_eq_ok.mp asserted)
    have first : (queues server worker).head? = some request.session := by
      rw [queues, queue]
      rfl
    have code : (program workers).Carries (.worker worker)
        (Stands server.session unlocked (queues server) (server.scope request.session))
        (body (.worker worker) .sendJob) .sendJob
        (Stands server.session unlocked (Function.update (queues server) worker
          ((if flushed then rest else request :: rest).map SendRequest.session)) scope) := by
      refine carries_frontSendRequest.bind ?_
      rw [first]
      refine does.carries.bind ?_
      cases flushed with
      | false =>
          have unchanged : Function.update (queues server) worker
              ((request :: rest).map SendRequest.session) = queues server := by
            rw [← queue]
            exact Function.update_eq_self worker (queues server)
          simp only [Bool.false_eq_true, if_false, unchanged]
          exact carries_pure Mode.sendJob
      | true =>
          have shorter : (queues server worker).tail = rest.map SendRequest.session := by
            rw [queues, queue]
            rfl
          simp only [if_true, ← shorter]
          exact carries_popSendRequest.bind (carries_pure Mode.sendJob)
    rcases exists_run_of_carries mode code (between.reflects.stands request.session) with
      ⟨steps, last, run, own, stands⟩
    refine ⟨steps, _, run, own, between.ofWorker (stands.reflects rfl rfl ?_) (Or.inl rfl) ?_⟩
    · exact queues_setWorker _ worker _
    · intro other ne
      simp [Server.setWorker, Server.leave, ne]

/-- With nothing to send a worker comes back to the completion port. -/
theorem exists_run_idle (between : Between server config) {worker : Fin workers}
    (empty : (server.worker worker).LSendRequestSessionList = []) :
    ∃ steps last, (lockingServer workers).Run config steps last ∧
      (∀ step ∈ steps, step.2.1 = .worker worker) ∧ Between server last ∧
      last.code (.worker worker) = .done .iocpJob := by
  rcases between.worker worker with busy | ⟨idle, _⟩
  · have none : (queues server worker).head? = none := by
      rw [queues, empty]
      rfl
    have code : (program workers).Carries (.worker worker)
        (Stands server.session unlocked (queues server) (server.scope (.server 0)))
        (body (.worker worker) .sendJob) .iocpJob
        (Stands server.session unlocked (queues server) (server.scope (.server 0))) := by
      refine carries_frontSendRequest.bind ?_
      rw [none]
      exact carries_pure Mode.iocpJob
    rcases exists_run_of_carries busy code (between.reflects.stands (.server 0)) with
      ⟨steps, last, run, own, stands⟩
    refine ⟨steps, _, run, own, between.ofWorker (stands.reflects ?_ rfl rfl)
      (Or.inr ⟨rfl, empty⟩) fun _ _ => rfl, Function.update_self ..⟩
    simp only [Server.leave, Server.scope, Function.update_eq_self]
  · exact ⟨[], config, .nil config, fun _ stepMem => absurd stepMem List.not_mem_nil, between, idle⟩

/-- A job that keeps to its session runs through without interruption. -/
theorem leads_of_carries {worker : Fin workers} {scope : SessionScope} (self : SessionId)
    (empty : (server.worker worker).LSendRequestSessionList = [])
    (carries : (program workers).Carries (.worker worker)
      (Stands server.session unlocked (queues server) (server.scope self)) doIocpJob .sendJob
      (Stands server.session unlocked (queues after) scope))
    (session : after.session = (server.leave scope).session)
    (manager : after.manager = (server.leave scope).manager)
    (others : ∀ other, other ≠ worker → after.worker other = server.worker other) :
    Leads (.worker worker) server after := by
  intro config between
  rcases exists_run_idle between empty with ⟨before, waiting, ran, ownBefore, still, idle⟩
  rcases exists_run_of_carries idle carries (still.reflects.stands self) with
    ⟨steps, last, run, own, stands⟩
  exact ⟨_, _, ran.append run, List.forall_mem_append.mpr ⟨ownBefore, own⟩,
    still.ofWorker (stands.reflects session manager rfl) (Or.inl rfl) others⟩

/-- A worker dequeues a completion that the port reports. -/
theorem does_dequeue (worker : Fin workers) {self : SessionId} {context : OverlappedIOContext}
    {completion : Completion} (inFlight : context ∈ (server.session self).inFlight)
    (reports : completion.Reports context) :
    Does (.worker worker) server.session unlocked (queues server) (server.scope self)
      (act .getQueuedCompletionStatus)
      (some ⟨view self context, completion.ret, completion.dwTransferred⟩)
      ((server.scope self).update (.dequeue context completion)) :=
  does_getQueuedCompletionStatus rfl inFlight reports

/-- A receive is echoed and its context closed. -/
theorem leads_receive {worker : Fin workers} {self : SessionId} {context : OverlappedIOContext}
    {completion : Completion} {winsock : Winsock} {queue : List SendRequest}
    {session : SessionState} {scope : SessionScope}
    (empty : (server.worker worker).LSendRequestSessionList = [])
    (inFlight : context ∈ (server.session self).inFlight) (reports : completion.Reports context)
    (kind : context.mIoType = .ioRecv) (ret : completion.ret = true)
    (transferred : completion.dwTransferred ≠ 0)
    (wellFormed : (((server.session self).dequeue context completion).recvCompletion
      completion).mRecvBuffer.WellFormed)
    (echoes : (((server.session self).dequeue context completion).recvCompletion
      completion).echoBack self [] = (queue, session))
    (finishes : SessionScope.finishRecv context winsock ⟨self, session, server.manager⟩ =
      .ok scope) :
    Leads (.worker worker) server ((server.leave scope).setWorker worker ⟨queue, .idle⟩) := by
  have current : queues server worker = [] := by
    rw [queues, empty]
    rfl
  have dequeues := does_dequeue worker inFlight reports
  have handles : (program workers).Carries (.worker worker)
      (Stands server.session unlocked (queues server)
        ((server.scope self).update (.dequeue context completion)))
      (handleJob self (view self context) completion) .sendJob
      (Stands server.session unlocked
        (Function.update (queues server) worker (queue.map SendRequest.session)) scope) :=
    carries_handleJob rfl poolsOpen_unlocked (open_unlocked _) kind ret transferred wellFormed
      (by exact current) echoes finishes
  refine leads_of_carries self empty ?_ rfl rfl ?_
  · rw [queues_setWorker]
    exact dequeues.carries.bind handles
  · intro other ne
    simp [Server.setWorker, Server.leave, ne]

/-- A handler that ends its job runs through without interruption. -/
theorem leads_handled {worker : Fin workers} {self : SessionId} {context : OverlappedIOContext}
    {completion : Completion} {winsock : Winsock} {scope : SessionScope}
    (empty : (server.worker worker).LSendRequestSessionList = [])
    (inFlight : context ∈ (server.session self).inFlight)
    (reports : completion.Reports context)
    (handled : SessionScope.doIocpJob context completion winsock
      ((server.scope self).update (.dequeue context completion)) = .ok (.idle, scope)) :
    Leads (.worker worker) server
      ((server.leave scope).setWorker worker { server.worker worker with job := .idle }) := by
  have dequeues := does_dequeue worker inFlight reports
  have handles : Does (.worker worker) server.session unlocked (queues server)
      ((server.scope self).update (.dequeue context completion))
      (handleJob self (view self context) completion) .sendJob scope :=
    does_handleJob rfl poolsOpen_unlocked (open_unlocked _) handled
  have unsent : queues ((server.leave scope).setWorker worker
      { server.worker worker with job := .idle }) = queues server := by
    rw [queues_setWorker]
    exact Function.update_eq_self worker (queues server)
  refine leads_of_carries self empty ?_ rfl rfl ?_
  · rw [unsent]
    exact dequeues.carries.bind handles.carries
  · intro other ne
    simp [Server.setWorker, Server.leave, ne]

theorem self_finishRecv {scope left : SessionScope} {context : OverlappedIOContext}
    {winsock : Winsock} (finished : scope.finishRecv context winsock = .ok left) :
    left.self = scope.self := by
  rcases Except.bind_eq_ok.mp finished with ⟨⟨completionOk, waiting⟩, receives, closes⟩
  have waits : Does (.main : Thread 0) (fun _ => scope.session) unlocked (fun _ => []) scope
      (preRecv scope.self) completionOk waiting :=
    does_preRecv rfl poolsOpen_unlocked (open_unlocked _) receives
  have ends : Does (.main : Thread 0) (fun _ => scope.session) unlocked (fun _ => []) waiting
      (closeJob scope.self (view scope.self context) completionOk) .sendJob left :=
    does_closeJob waits.self poolsOpen_unlocked (open_unlocked _) closes
  exact ends.self.trans waits.self

/-- The rest of a receive, as it is in the three steps. -/
theorem receive_cases {received echoed : Server workers} {worker : Fin workers}
    {self : SessionId} {context : OverlappedIOContext} {winsock : Winsock}
    (job : received.worker worker = ⟨[], .recvCompleted self context⟩)
    (echoes : received.echoBack worker = .ok echoed)
    (finishes : echoed.finishRecv worker winsock = .ok after) :
    ∃ queue session scope, (received.session self).echoBack self [] = (queue, session) ∧
      SessionScope.finishRecv context winsock ⟨self, session, received.manager⟩ = .ok scope ∧
      after = (received.leave scope).setWorker worker ⟨queue, .idle⟩ := by
  simp only [Server.echoBack, job] at echoes
  cases echo : (received.session self).echoBack self [] with
  | mk queue session =>
    rw [echo] at echoes
    cases echoes
    simp only [Server.finishRecv, Server.setWorker, Function.update_self] at finishes
    rcases Except.bind_eq_ok.mp finishes with ⟨scope, asserted, left⟩
    have finish : SessionScope.finishRecv context winsock ⟨self, session, received.manager⟩ =
        .ok scope := by
      rw [← asserting_eq_ok.mp asserted]
      simp only [Server.scope, Server.leave, Function.update_self]
    have isSelf : scope.self = self := self_finishRecv finish
    cases left
    refine ⟨queue, session, scope, rfl, finish, ?_⟩
    simp only [Server.setWorker, Server.leave, isSelf, Function.update_idem]

/-- A turn of `DoIocpJob` runs through without interruption. -/
theorem leads_wholeJob {worker : Fin workers} {self : SessionId} {context : OverlappedIOContext}
    {completion : Completion} {winsock : Winsock} (reachable : (machine workers).Reachable server)
    (ran : server.wholeJob worker self context completion winsock = .ok after) :
    Leads (.worker worker) server after := by
  rcases Except.bind_eq_ok.mp ran with ⟨received, handled, rest⟩
  have first : (machine workers).Step server (.doIocpJob worker self context completion winsock)
      received :=
    handled
  have safe := safe_of_reachable (reachable.step first)
  simp only [Server.doIocpJob] at handled
  split at handled
  case isFalse => cases handled
  case isTrue enabled =>
    rcases enabled with ⟨idle, empty, completes, reports⟩
    rcases Except.bind_eq_ok.mp handled with ⟨⟨job, scope⟩, asserted, left⟩
    have same := Except.ok.inj left
    have handling := asserting_eq_ok.mp asserted
    rcases doIocpJob_cases handling with rfl | ⟨kind, ret, transferred, rfl, rfl⟩
    · subst same
      have ended : (server.leave scope).setWorker worker
          { server.worker worker with job := .idle } = after := by
        simpa [Server.setWorker] using rest
      rw [← ended]
      exact leads_handled empty (SessionState.inFlight_of_completable completes) reports handling
    · have job : received.worker worker = ⟨[], .recvCompleted self context⟩ := by
        rw [← same]
        simp [Server.setWorker, empty, Server.scope, SessionScope.update]
      have session : received.session self =
          ((server.session self).dequeue context completion).recvCompletion completion := by
        rw [← same]
        exact Function.update_self ..
      rcases safe.working worker self context (by rw [job]; rfl) with ⟨_, _, client, isClient⟩
      have wellFormed : (received.session self).mRecvBuffer.WellFormed := by
        rw [isClient]
        exact (safe.clients client).echoing.recvBuffer
      rw [session] at wellFormed
      simp only [job] at rest
      rcases Except.bind_eq_ok.mp rest with ⟨echoed, echoes, finishes⟩
      rcases receive_cases job echoes finishes with ⟨queue, sent, scope, echo, finish, rfl⟩
      rw [session] at echo
      have isSelf : scope.self = self := self_finishRecv finish
      have left : (received.leave scope).setWorker worker ⟨queue, .idle⟩ =
          (server.leave scope).setWorker worker ⟨queue, .idle⟩ := by
        rw [← same]
        simp only [Server.setWorker, Server.leave, isSelf, Function.update_idem, Server.scope,
          SessionScope.update]
      have manager : received.manager = server.manager := by
        rw [← same]
        rfl
      rw [manager] at finish
      rw [left]
      exact leads_receive empty (SessionState.inFlight_of_completable completes) reports kind ret
        transferred wellFormed echo finish

/-! ## The main thread -/

section Main

variable {sessions : SessionId → SessionState} {requests : Fin workers → List SessionId}
  {scope : SessionScope}

theorem does_belowMaxConnection :
    Does thread sessions owner requests scope (act .belowMaxConnection)
      (decide (Word.sub64 scope.manager.mCurrentIssueCount scope.manager.mCurrentReturnCount <
        maxConnection)) scope := by
  refine does_read fun state stands => ?_
  simp only [State.perform, stands.mirrors.manager]

theorem does_popFreeSession {newClient : ClientId} {rest : List ClientId}
    (free : scope.manager.mFreeSessionList = newClient :: rest) :
    Does thread sessions owner requests scope (act .popFreeSession) newClient
      { scope with manager := { scope.manager with mFreeSessionList := rest } } := by
  refine does_manage fun state same => ?_
  simp only [State.perform, same, free]

theorem does_countIssue :
    Does thread sessions owner requests scope (act .countIssue) ()
      { scope with
        manager := { scope.manager with
          mCurrentIssueCount := scope.manager.mCurrentIssueCount + 1 } } :=
  does_manage fun state same => by simp only [State.perform, same]

end Main

/-- The main thread is inside `AcceptClientSessions`. -/
def heldByMain : Lock → Option (Thread workers) :=
  Function.update unlocked .mLock (some .main)

theorem poolsOpen_heldByMain : PoolsOpen (heldByMain : Lock → Option (Thread workers)) := by
  intro mIoType
  exact Function.update_of_ne (by simp) ..

/-- An iteration that posts its `AcceptEx`. -/
theorem exists_run_iteration {winsock : Winsock}
    (reflects : Reflects heldByMain server config.state)
    (about : config.code .main = .done .accepting)
    (ran : server.acceptClientSession winsock = .ok (true, after)) :
    ∃ steps last, (lockingServer workers).Run config steps
        ⟨last, Function.update config.code .main (.done .accepting)⟩ ∧
      (∀ step ∈ steps, step.2.1 = .main) ∧ Reflects heldByMain after last := by
  simp only [Server.acceptClientSession] at ran
  split at ran
  case isFalse => cases ran
  case isTrue below =>
    split at ran
    case h_1 => cases ran
    case h_2 newClient rest free =>
      rcases Except.bind_eq_ok.mp ran with ⟨⟨posted, scope⟩, asserted, left⟩
      cases left
      rcases Except.bind_eq_ok.mp (asserting_eq_ok.mp asserted) with ⟨added, adds, posts⟩
      have code : (program workers).Carries .main
          (Stands server.session heldByMain (queues server) (server.scope (.client newClient)))
          (body (.main : Thread workers) .accepting) .accepting
          (Stands server.session heldByMain (queues server) scope) := by
        have guard : decide (Word.sub64 server.manager.mCurrentIssueCount
            server.manager.mCurrentReturnCount < maxConnection) = true :=
          decide_eq_true below
        have reads : Does .main server.session heldByMain (queues server)
            (server.scope (.client newClient)) (act .belowMaxConnection) true
            (server.scope (.client newClient)) :=
          guard ▸ does_belowMaxConnection
        refine reads.carries.bind ?_
        refine (does_popFreeSession free).carries.bind (does_countIssue.carries.bind ?_)
        have issues : Does .main server.session heldByMain (queues server)
            ⟨.client newClient, server.session (.client newClient),
              { server.manager with
                mFreeSessionList := rest
                mCurrentIssueCount := server.manager.mCurrentIssueCount + 1 }⟩
            (addRef (.client newClient)) () added :=
          Does.seen _ (does_addRef (by rfl) adds) rfl rfl
        refine issues.carries.bind ?_
        have post : Does .main server.session heldByMain (queues server) added
            (postAccept newClient) true scope :=
          does_postAccept issues.self poolsOpen_heldByMain posts
        exact post.carries.bind (carries_pure Mode.accepting)
      rcases exists_run_of_carries about code (reflects.stands (.client newClient)) with
        ⟨steps, last, run, own, stands⟩
      exact ⟨steps, last, run, own, stands.reflects rfl rfl rfl⟩

/-- The accepting loop runs through under the lock of the manager. -/
theorem exists_run_accepting {outcomes : List Winsock}
    (reflects : Reflects heldByMain server config.state)
    (about : config.code .main = .done .accepting)
    (ran : server.acceptClientSessions outcomes = .ok (true, after)) :
    ∃ steps last, (lockingServer workers).Run config steps
        ⟨last, Function.update config.code .main (.done .accept)⟩ ∧
      (∀ step ∈ steps, step.2.1 = .main) ∧ Reflects unlocked after last := by
  induction outcomes generalizing server config with
  | nil =>
      simp only [Server.acceptClientSessions] at ran
      split at ran
      · cases ran
      next full =>
      cases ran
      have guard : decide (Word.sub64 after.manager.mCurrentIssueCount
          after.manager.mCurrentReturnCount < maxConnection) = false :=
        decide_eq_false full
      have reads : Does .main after.session heldByMain (queues after)
          (after.scope (.server 0)) (act .belowMaxConnection) false
          (after.scope (.server 0)) :=
        guard ▸ does_belowMaxConnection
      have code : (program workers).Carries .main
          (Stands after.session heldByMain (queues after) (after.scope (.server 0)))
          (body (.main : Thread workers) .accepting) .accept
          (Stands after.session unlocked (queues after) (after.scope (.server 0))) :=
        reads.carries.bind ((carries_leaveLock rfl).bind (carries_pure Mode.accept))
      rcases exists_run_of_carries about code (reflects.stands (.server 0)) with
        ⟨steps, last, run, own, stands⟩
      refine ⟨steps, last, run, own, stands.reflects ?_ rfl rfl⟩
      simp only [Server.leave, Server.scope, Function.update_eq_self]
  | cons winsock outcomes ih =>
      rcases Except.bind_eq_ok.mp ran with ⟨⟨posted, middle⟩, iteration, rest⟩
      cases posted with
      | false => cases rest
      | true =>
          rcases exists_run_iteration reflects about iteration with
            ⟨first, between, run, ownFirst, still⟩
          have mode : Function.update config.code .main (.done .accepting) .main =
              .done .accepting :=
            Function.update_self ..
          rcases @ih _ ⟨between, Function.update config.code .main (.done .accepting)⟩ still mode
            rest with ⟨steps, last, runs, own, ended⟩
          simp only [Function.update_idem] at runs
          exact ⟨_, last, run.append runs, List.forall_mem_append.mpr ⟨ownFirst, own⟩, ended⟩

theorem worker_acceptClientSessions {outcomes : List Winsock} {accepted : Bool}
    (ran : server.acceptClientSessions outcomes = .ok (accepted, after)) :
    after.worker = server.worker := by
  have kept (before : Server workers) (winsock : Winsock) (middle : Server workers)
      (same : before.worker = server.worker)
      (iteration : before.step (.acceptClientSession winsock) = .ok middle) :
      middle.worker = server.worker := by
    rcases Except.map_eq_ok.mp iteration with ⟨⟨posted, left⟩, made, rfl⟩
    simp only [Server.acceptClientSession] at made
    split at made
    · split at made
      · cases made
      · rcases Except.bind_eq_ok.mp made with ⟨⟨result, scope⟩, _, rest⟩
        cases rest
        exact same
    · cases made
  exact acceptClientSessions_invariant kept rfl ran

/-- `AcceptClientSessions` runs through and leaves its lock. -/
theorem leads_acceptClientSessions {outcomes : List Winsock}
    (ran : server.acceptClientSessions outcomes = .ok (true, after)) :
    Leads .main server after := by
  intro config between
  have code : (program workers).Carries .main
      (Stands server.session unlocked (queues server) (server.scope (.server 0)))
      (body (.main : Thread workers) .accept) .accepting
      (Stands server.session heldByMain (queues server) (server.scope (.server 0))) :=
    (carries_enterLock rfl).bind (carries_pure Mode.accepting)
  rcases exists_run_of_carries between.main code (between.reflects.stands (.server 0)) with
    ⟨entering, inside, enters, ownEnter, stands⟩
  have reflects : Reflects heldByMain server inside := by
    refine stands.reflects ?_ rfl rfl
    simp only [Server.leave, Server.scope, Function.update_eq_self]
  have mode : Function.update config.code .main (.done .accepting) .main = .done .accepting :=
    Function.update_self ..
  rcases @exists_run_accepting _ _ _ ⟨inside, Function.update config.code .main (.done .accepting)⟩
    _ reflects mode ran with ⟨steps, last, run, own, ended⟩
  have same : Function.update (Function.update config.code .main (.done .accepting)) .main
      (.done .accept) = config.code := by
    rw [Function.update_idem, ← between.main, Function.update_eq_self]
  simp only [same] at run
  refine ⟨_, _, enters.append run, List.forall_mem_append.mpr ⟨ownEnter, own⟩, ended,
    between.main, between.connecting, ?_⟩
  rw [worker_acceptClientSessions ran]
  exact between.worker

/-! ## Runs -/

/-- Each call is a run of its thread. -/
theorem leads_of_call {call : Call workers} (reachable : (machine workers).Reachable server)
    (accepts : server.Accepts call) (ran : server.call call = .ok after) :
    Leads call.thread server after := by
  cases call with
  | acceptClientSessions outcomes =>
      rcases accepts with ⟨last, accepted⟩
      simp only [Server.call, accepted] at ran
      cases ran
      exact leads_acceptClientSessions accepted
  | connectRequest index winsock => exact leads_connectRequest ran
  | doIocpJob worker self context completion winsock => exact leads_wholeJob reachable ran
  | doSendJob worker winsock => exact leads_doSendJob reachable ran

/-- Both servers start between two jobs. -/
theorem between_start (raw : RawMemory) :
    Between (.start workers raw)
      ⟨State.start workers raw, fun thread => .done (Mode.start thread)⟩ where
  reflects := by
    refine ⟨⟨fun _ => rfl, fun _ => .refl _, rfl, fun _ => ⟨le_rfl, ?_⟩⟩, rfl, rfl⟩
    exact Int.pow_pos (by decide)
  main := rfl
  connecting _ := rfl
  worker _ := Or.inr ⟨rfl, rfl⟩

/-- What calls lead to is reached by the operations of the threads, with no lock taken. -/
theorem exists_between_of_run {raw : RawMemory} {steps : List (Server workers × Call workers)}
    (run : (callMachine workers).Run (.start workers raw) steps server)
    (accepts : ∀ step ∈ steps, step.1.Accepts step.2) :
    ∃ config, (lockingServer workers).Reachable config ∧ Between server config := by
  generalize begun : Server.start workers raw = first at run
  induction run with
  | nil =>
      subst begun
      exact ⟨_, .ofInitial ⟨⟨raw, rfl⟩, fun _ => rfl⟩, between_start raw⟩
  | @snoc middle last steps call run step ih =>
      rcases List.forall_mem_append.mp accepts with ⟨earlier, now⟩
      rcases ih earlier with ⟨config, ⟨start, before, initial, reached⟩, between⟩
      have reachable : (machine workers).Reachable middle :=
        reachable_of_calls ⟨_, steps, ⟨raw, begun.symm⟩, run⟩
      have accepted := now (middle, call) (List.mem_singleton_self _)
      rcases leads_of_call reachable accepted step config between with
        ⟨made, ended, runs, _, left⟩
      exact ⟨ended, ⟨start, _, initial, reached.append runs⟩, left⟩

/-- So a queued session in the pool is also met where each operation is a step. -/
theorem exists_queuesFree : ∃ config, (lockingServer 2).Reachable config ∧
    ∃ client, .client client ∈ config.state.LSendRequestSessionList 0 ∧
      client ∈ config.state.manager.mFreeSessionList := by
  rcases exists_recycling with ⟨server, steps, run, accepts, queued⟩
  rcases exists_between_of_run run accepts with ⟨config, reachable, between⟩
  simp only [queuesFree] at queued
  split at queued
  case h_2 => cases queued
  case h_1 client connection rest front =>
    refine ⟨config, reachable, client, ?_, ?_⟩
    · rw [between.reflects.requests, queues, front]
      exact List.mem_cons_self
    · rw [between.reflects.mirrors.manager]
      exact List.mem_of_mem_head? (of_decide_eq_true queued)

end Locking

end Gsp.Homework5
