import Gsp.Homework5.Change

/-!
# Every state the server reaches

The invariant of the server is kept by every step, and so is every law of client
sessions that turns keep.
-/

namespace Gsp.Homework5

namespace SessionState

variable {session : SessionState} {context : OverlappedIOContext}

theorem handled_attempt (accepted : Bool) :
    (session.attempt accepted context).handled = session.handled := by
  simp only [attempt]
  split <;> rfl

theorem handled_issue (winsock : Winsock) : (session.issue winsock).handled = session.handled := by
  simp only [issue]
  split
  · rw [handled_attempt]
    rfl
  · simp only [record, handled_attempt]

theorem handled_flush (winsock : Winsock) :
    (session.flush winsock).2.handled = session.handled := by
  rcases flush_cases winsock session with same | ⟨context, _, _, _, _, posted | refused⟩
  · rw [same]
  · rw [posted]
    rfl
  · rw [refused, handled_disconnect]
    rfl

theorem handled_echoBack (self : SessionId) (queue : List SendRequest) :
    (session.echoBack self queue).2.handled = session.handled := by
  rcases echoBack_cases self queue session with echo | echo | ⟨_, _, echo⟩ <;> rw [echo]

/-- A discarded context is no longer handled. -/
theorem handled_discard : (session.discard context).handled = session.handled.erase context := by
  simp only [discard]
  split <;> rfl

theorem connections_discard : connections (session.discard context).trace =
    connections session.trace := by
  simp only [discard]
  split <;> rfl

/-- A turn leaves the connection as it is, or begins one on a free session. -/
theorem connections_turn {after : SessionState} (turn : Turn session after) :
    connections after.trace = connections session.trace ∨
      (issued session.trace = false ∧
        connections after.trace = connections session.trace + 1) := by
  cases turn with
  | issue winsock free => exact Or.inr ⟨free, (Quiet.issue winsock session).steady.connections_eq⟩
  | @handle context completion winsock _ _ _ =>
      have dequeued : Steady session (session.dequeue context completion) := Steady.of_trace rfl
      left
      rw [connections_discard, (Steady.handle context completion winsock _).connections_eq,
        dequeued.connections_eq]
  | receive _ _ _ => exact Or.inl rfl
  | echo self queue _ _ => exact Or.inl (Steady.echoBack self queue session).connections_eq
  | finish winsock _ _ =>
      left
      rw [connections_discard, (Steady.finish winsock session).connections_eq]
  | flush winsock => exact Or.inl (Steady.flush winsock session).connections_eq

/-- A handler does not discard the context that it handles. -/
theorem handled_handle (completion : Completion) (winsock : Winsock) :
    (session.handle context completion winsock).handled = session.handled := by
  simp only [handle]
  split
  · rw [handled_disconnect]
    split <;> rfl
  · split
    · rfl
    · exact handled_accepted winsock
    · rw [handled_close, handled_postReceive]
    · rw [handled_close]
      rfl
    · rfl

/-- Handling a completion ends with its context gone. -/
theorem handled_complete (completion : Completion) (winsock : Winsock) :
    ((session.complete context completion winsock).discard context).handled = session.handled := by
  rw [handled_discard, complete, handled_handle]
  exact List.erase_cons_head ..

end SessionState

namespace Server

open SessionState SessionScope

variable {workers : ℕ} {server after : Server workers} {action : Action workers}

@[simp]
theorem session_setWorker (index : Fin workers) (worker : Worker) :
    (server.setWorker index worker).session = server.session := rfl

/-- A scope that is left shows in its session. -/
@[simp]
theorem session_leave_self (self : SessionId) (session : SessionState)
    (manager : ClientSessionManager) :
    (server.leave ⟨self, session, manager⟩).session self = session :=
  Function.update_self ..

/-- A scope that is left shows in no other session. -/
theorem session_leave_of_ne {self other : SessionId} (ne : other ≠ self) (session : SessionState)
    (manager : ClientSessionManager) :
    (server.leave ⟨self, session, manager⟩).session other = server.session other :=
  Function.update_of_ne ne ..

/-- A law of the sessions after a function has run on one of them. -/
theorem forall_leave (Law : SessionId → SessionState → Prop) {self : SessionId}
    {session : SessionState} {manager : ClientSessionManager} (now : Law self session)
    (others : ∀ other, other ≠ self → Law other (server.session other)) (other : SessionId) :
    Law other ((server.leave ⟨self, session, manager⟩).session other) := by
  by_cases same : other = self
  · subst same
    rwa [session_leave_self]
  · rw [session_leave_of_ne same]
    exact others other same

theorem working_of_job {worker : Fin workers} {job : Job} {self : SessionId}
    {context : OverlappedIOContext} (atWork : (server.worker worker).job = job)
    (working : job.working = some (self, context)) :
    (server.worker worker).job.working = some (self, context) := by
  rwa [atWork]

/-- A client session takes a turn or stays as it is. -/
theorem turn_of_change (safe : server.Safe) (change : Change server action after)
    (client : ClientId) :
    after.session (.client client) = server.session (.client client) ∨
      Turn (server.session (.client client)) (after.session (.client client)) := by
  have turned {ran : ClientId} {session : SessionState} (manager : ClientSessionManager)
      (turn : Turn (server.session (.client ran)) session) :
      (server.leave ⟨.client ran, session, manager⟩).session (.client client) =
          server.session (.client client) ∨
        Turn (server.session (.client client))
          ((server.leave ⟨.client ran, session, manager⟩).session (.client client)) := by
    apply forall_leave fun self session =>
      session = server.session self ∨ Turn (server.session self) session
    · exact Or.inr turn
    · intro other _
      exact Or.inl rfl
  cases change with
  | @issue ran rest winsock taken =>
      apply turned
      apply Turn.issue
      rw [← safe.free, taken]
      exact List.mem_cons_self
  | outgoing _ _ _ =>
      left
      exact session_leave_of_ne (by simp) ..
  | handle winsock _ _ inFlight reports notArrives =>
      exact turned _ (.handle winsock inFlight reports notArrives)
  | receive winsock _ _ inFlight reports arrives =>
      exact turned _ (.receive inFlight reports arrives)
  | echo atWork =>
      rcases safe.working _ _ _ (working_of_job atWork rfl) with ⟨kind, handled, _⟩
      exact turned _ (.echo _ _ handled kind)
  | finish winsock atWork =>
      rcases safe.working _ _ _ (working_of_job atWork rfl) with ⟨kind, handled, _⟩
      exact turned _ (.finish winsock handled kind)
  | flush winsock _ _ => exact turned _ (.flush winsock)

/-- Every change keeps the sessions that connect outwards. -/
theorem outgoing_of_change (safe : server.Safe) (change : Change server action after)
    (index : ℕ) : (after.session (.server index)).Outgoing := by
  have same {ran : ClientId} (session : SessionState) (manager : ClientSessionManager) :
      ((server.leave ⟨.client ran, session, manager⟩).session (.server index)).Outgoing := by
    rw [session_leave_of_ne (by simp)]
    exact safe.servers index
  cases change with
  | @outgoing action ran session acts outgoing opened =>
      by_cases this : index = ran
      · subst this
        rwa [session_leave_self]
      · rw [session_leave_of_ne (by simpa using this)]
        exact safe.servers index
  | issue _ _ => exact same _ _
  | handle _ _ _ _ _ _ => exact same _ _
  | receive _ _ _ _ _ _ =>
      rw [session_setWorker]
      exact same _ _
  | echo _ =>
      rw [session_setWorker]
      exact same _ _
  | finish _ _ =>
      rw [session_setWorker]
      exact same _ _
  | flush _ _ _ =>
      rw [session_setWorker]
      exact same _ _

/-! ## The workers -/

theorem handled_leave {ran : ClientId} {session : SessionState} {manager : ClientSessionManager}
    (sameHandled : session.handled = (server.session (.client ran)).handled) (client : ClientId) :
    ((server.leave ⟨.client ran, session, manager⟩).session (.client client)).handled =
      (server.session (.client client)).handled := by
  apply forall_leave fun self session => session.handled = (server.session self).handled
  · exact sameHandled
  · intro other _
    rfl

/-- The list of a worker and its place in the `IO_RECV` branch agree. -/
structure Orderly (worker : Worker) : Prop where
  queued : ∀ request ∈ worker.LSendRequestSessionList, ∃ client, request.session = .client client
  short : worker.LSendRequestSessionList.length ≤ 1
  unqueued : ∀ self context, worker.job = .recvCompleted self context →
    worker.LSendRequestSessionList = []
  own : ∀ self context, worker.job = .echoed self context →
    ∀ request ∈ worker.LSendRequestSessionList, request.session = self

theorem Crew.orderly (crew : server.Crew) (worker : Fin workers) :
    Orderly (server.worker worker) :=
  ⟨crew.queued worker, crew.short worker, crew.unqueued worker, crew.own worker⟩

/-- An idle worker with at most one request is in order. -/
theorem orderly_idle {queue : List SendRequest}
    (queued : ∀ request ∈ queue, ∃ client, request.session = .client client)
    (short : queue.length ≤ 1) : Orderly ⟨queue, .idle⟩ := by
  refine ⟨queued, short, ?_, ?_⟩
  · intro _ _ impossible
    cases impossible
  · intro _ _ impossible
    cases impossible

theorem orderly_recvCompleted (client : ClientId) (context : OverlappedIOContext) :
    Orderly ⟨[], .recvCompleted (.client client) context⟩ := by
  refine ⟨?_, Nat.zero_le 1, fun _ _ _ => rfl, ?_⟩
  · intro _ requestMem
    cases requestMem
  · intro _ _ impossible
    cases impossible

/-- `EchoBack` with an empty list queues at most the session itself. -/
theorem orderly_echoed (client : ClientId) (context : OverlappedIOContext)
    (session : SessionState) :
    Orderly ⟨(session.echoBack (.client client) []).1, .echoed (.client client) context⟩ := by
  have queue : (session.echoBack (.client client) []).1 = [] ∨
      (session.echoBack (.client client) []).1 =
        [⟨.client client, connections session.trace⟩] := by
    rcases echoBack_cases (.client client) [] session with echo | echo | ⟨_, _, echo⟩ <;> rw [echo]
    · exact Or.inl rfl
    · exact Or.inl rfl
    · exact Or.inr rfl
  have itself : ∀ request ∈ (session.echoBack (.client client) []).1,
      request.session = .client client := by
    intro request requestMem
    rcases queue with none | one
    · rw [none] at requestMem
      cases requestMem
    · rw [one] at requestMem
      rw [List.mem_singleton.mp requestMem]
  refine ⟨fun request requestMem => ⟨client, itself request requestMem⟩, ?_, ?_, ?_⟩
  · rcases queue with none | one
    · simp [none]
    · simp [one]
  · intro _ _ impossible
    cases impossible
  · intro self otherContext same
    cases same
    exact itself

/-- The workers and what is being handled stay as they are. -/
theorem crew_same (crew : server.Crew) (sameWorker : after.worker = server.worker)
    (sameHandled : ∀ client, (after.session (.client client)).handled =
      (server.session (.client client)).handled) : after.Crew := by
  rcases crew with ⟨working, handled, alone, queued, short, unqueued, own⟩
  constructor
  · intro worker self context atWork
    rw [sameWorker] at atWork
    rcases working worker self context atWork with ⟨kind, contextMem, client, rfl⟩
    rw [sameHandled]
    exact ⟨kind, contextMem, client, rfl⟩
  · intro client context contextMem
    rw [sameHandled] at contextMem
    rw [sameWorker]
    exact handled client context contextMem
  · rwa [sameWorker]
  · rwa [sameWorker]
  · rwa [sameWorker]
  · rwa [sameWorker]
  · rwa [sameWorker]

@[simp]
theorem worker_setWorker_self (index : Fin workers) (worker : Worker) :
    (server.setWorker index worker).worker index = worker :=
  Function.update_self ..

theorem worker_setWorker_of_ne {index other : Fin workers} (ne : other ≠ index)
    (worker : Worker) : (server.setWorker index worker).worker other = server.worker other :=
  Function.update_of_ne ne ..

/-- A worker changes; what it and the sessions hold still agrees. -/
theorem crew_setWorker (crew : server.Crew) {session : SessionId → SessionState}
    {manager : ClientSessionManager} {index : Fin workers} {worker : Worker}
    (orderly : Orderly worker)
    (working : ∀ self context, worker.job.working = some (self, context) →
      context.mIoType = .ioRecv ∧ context ∈ (session self).handled ∧
        ∃ client, self = .client client)
    (keeps : ∀ other self context, other ≠ index →
      (server.worker other).job.working = some (self, context) → context ∈ (session self).handled)
    (handled : ∀ client, ∀ context ∈ (session (.client client)).handled,
      worker.job.working = some (.client client, context) ∨
        ∃ other, other ≠ index ∧
          (server.worker other).job.working = some (.client client, context))
    (alone : ∀ other self context otherContext, other ≠ index →
      worker.job.working = some (self, context) →
        (server.worker other).job.working ≠ some (self, otherContext)) :
    ({ server with session := session, manager := manager }.setWorker index worker).Crew := by
  have orderlies (other : Fin workers) :
      Orderly (({ server with session := session, manager := manager }.setWorker index
        worker).worker other) := by
    by_cases same : other = index
    · subst same
      rwa [worker_setWorker_self]
    · rw [worker_setWorker_of_ne same]
      exact crew.orderly other
  constructor
  · intro other self context atWork
    by_cases same : other = index
    · subst same
      rw [worker_setWorker_self] at atWork
      exact working self context atWork
    · rw [worker_setWorker_of_ne same] at atWork
      rcases crew.working other self context atWork with ⟨kind, _, ofClient⟩
      exact ⟨kind, keeps other self context same atWork, ofClient⟩
  · intro client context contextMem
    rcases handled client context contextMem with atWork | ⟨other, ne, atWork⟩
    · exact ⟨index, by rwa [worker_setWorker_self]⟩
    · exact ⟨other, by rwa [worker_setWorker_of_ne ne]⟩
  · intro first second self context otherContext firstWork secondWork
    by_cases isFirst : first = index <;> by_cases isSecond : second = index
    · rw [isFirst, isSecond]
    · subst isFirst
      rw [worker_setWorker_self] at firstWork
      rw [worker_setWorker_of_ne isSecond] at secondWork
      exact absurd secondWork (alone second self context otherContext isSecond firstWork)
    · subst isSecond
      rw [worker_setWorker_self] at secondWork
      rw [worker_setWorker_of_ne isFirst] at firstWork
      exact absurd firstWork (alone first self otherContext context isFirst secondWork)
    · rw [worker_setWorker_of_ne isFirst] at firstWork
      rw [worker_setWorker_of_ne isSecond] at secondWork
      exact crew.alone first second self context otherContext firstWork secondWork
  · exact fun other => (orderlies other).queued
  · exact fun other => (orderlies other).short
  · exact fun other => (orderlies other).unqueued
  · exact fun other => (orderlies other).own

/-- A worker changes its queue and moves on inside its branch, or stays idle. -/
theorem crew_requeue (crew : server.Crew) {index : Fin workers} {worker : Worker}
    (sameWorking : worker.job.working = (server.worker index).job.working)
    (orderly : Orderly worker) : (server.setWorker index worker).Crew := by
  apply crew_setWorker crew orderly
  · intro self context atWork
    rw [sameWorking] at atWork
    exact crew.working index self context atWork
  · intro other self context _ atWork
    exact (crew.working other self context atWork).2.1
  · intro client context contextMem
    rcases crew.handled client context contextMem with ⟨other, atWork⟩
    by_cases same : other = index
    · subst same
      left
      rwa [sameWorking]
    · exact Or.inr ⟨other, same, atWork⟩
  · intro other self context otherContext ne atWork otherWork
    rw [sameWorking] at atWork
    exact ne (crew.alone other index self otherContext context otherWork atWork)

/-- A worker begins with a completed receive. -/
theorem crew_receive (safe : server.Safe) {index : Fin workers} {client : ClientId}
    {context : OverlappedIOContext} (idle : (server.worker index).job = .idle)
    (inFlight : context ∈ (server.session (.client client)).inFlight)
    (kind : context.mIoType = .ioRecv) {session : SessionState}
    (handled : session.handled = context :: (server.session (.client client)).handled) :
    ((server.leave ⟨.client client, session, server.manager⟩).setWorker index
      ⟨[], .recvCompleted (.client client) context⟩).Crew := by
  have nobody (worker : Fin workers) (otherContext : OverlappedIOContext) :
      (server.worker worker).job.working ≠ some (.client client, otherContext) := by
    intro atWork
    rcases safe.working worker _ _ atWork with ⟨otherKind, otherHandled, _⟩
    exact ne_recv_of_handled (safe.settled client) otherHandled otherKind inFlight kind
  have ne_of_working {worker : Fin workers} {self : SessionId} {otherContext : OverlappedIOContext}
      (atWork : (server.worker worker).job.working = some (self, otherContext)) :
      worker ≠ index := by
    rintro rfl
    rw [idle] at atWork
    cases atWork
  apply crew_setWorker safe.toCrew
  · exact orderly_recvCompleted client context
  · intro self otherContext atWork
    cases atWork
    refine ⟨kind, ?_, client, rfl⟩
    rw [Function.update_self, handled]
    exact List.mem_cons_self
  · intro other self otherContext _ atWork
    have ne : self ≠ .client client := by
      rintro rfl
      exact nobody other otherContext atWork
    rw [Function.update_of_ne ne]
    exact (safe.working other self otherContext atWork).2.1
  · intro other otherContext contextMem
    by_cases same : SessionId.client other = .client client
    · rw [same] at contextMem ⊢
      rw [Function.update_self, handled] at contextMem
      rcases List.mem_cons.mp contextMem with rfl | old
      · exact Or.inl rfl
      · rcases safe.handled client otherContext old with ⟨worker, atWork⟩
        exact absurd atWork (nobody worker otherContext)
    · rw [Function.update_of_ne same] at contextMem
      rcases safe.handled other otherContext contextMem with ⟨worker, atWork⟩
      exact Or.inr ⟨worker, ne_of_working atWork, atWork⟩
  · intro other self otherContext thirdContext _ atWork
    cases atWork
    exact nobody other thirdContext

/-- A worker leaves its branch and deletes the completed receive. -/
theorem crew_finish (safe : server.Safe) {index : Fin workers} {client : ClientId}
    {context : OverlappedIOContext}
    (atWork : (server.worker index).job = .echoed (.client client) context)
    {session : SessionState} {manager : ClientSessionManager}
    (handled : session.handled = (server.session (.client client)).handled.erase context) :
    ((server.leave ⟨.client client, session, manager⟩).setWorker index
      ⟨(server.worker index).LSendRequestSessionList, .idle⟩).Crew := by
  have working := working_of_job atWork rfl
  rcases safe.working index _ _ working with ⟨kind, contextMem, _⟩
  have single : tally OverlappedIOContext.mIoType (server.session (.client client)).handled
      context.mIoType ≤ 1 := by
    have receivers := receivers_le (safe.settled client)
    simp only [tokens, live, Tally.tally_append] at receivers
    rw [kind]
    omega
  apply crew_setWorker safe.toCrew
  · exact orderly_idle (safe.queued index) (safe.short index)
  · intro self otherContext impossible
    cases impossible
  · intro other self otherContext ne stillWork
    have notSame : self ≠ .client client := by
      rintro rfl
      exact ne (safe.alone other index _ _ _ stillWork working)
    rw [Function.update_of_ne notSame]
    exact (safe.working other self otherContext stillWork).2.1
  · intro other otherContext stillHandled
    right
    by_cases same : SessionId.client other = .client client
    · rw [same, Function.update_self, handled] at stillHandled
      rcases safe.handled client otherContext (List.mem_of_mem_erase stillHandled) with
        ⟨worker, stillWork⟩
      rcases safe.working worker _ _ stillWork with ⟨otherKind, _, _⟩
      exact absurd (otherKind.trans kind.symm)
        (Tally.ne_of_mem_erase contextMem single stillHandled)
    · rw [Function.update_of_ne same] at stillHandled
      rcases safe.handled other otherContext stillHandled with ⟨worker, stillWork⟩
      refine ⟨worker, ?_, stillWork⟩
      rintro rfl
      rw [working] at stillWork
      cases stillWork
      exact same rfl
  · intro other self otherContext thirdContext _ impossible
    cases impossible

/-- What keeps the handled contexts keeps the crew. -/
theorem crew_leave (safe : server.Safe) {client : ClientId} {session : SessionState}
    {manager : ClientSessionManager}
    (sameHandled : session.handled = (server.session (.client client)).handled) :
    (server.leave ⟨.client client, session, manager⟩).Crew :=
  crew_same safe.toCrew rfl (handled_leave sameHandled)

/-- Every change keeps the workers in order. -/
theorem crew_of_change (safe : server.Safe) (change : Change server action after) :
    after.Crew := by
  cases change with
  | issue winsock _ => exact crew_leave safe (handled_issue winsock)
  | @outgoing action ran session acts outgoing opened =>
      have same : (server.leave ⟨.server ran, session, server.manager⟩).worker = server.worker :=
        rfl
      apply crew_same safe.toCrew same
      intro client
      rw [session_leave_of_ne (by simp)]
  | handle winsock _ _ _ _ _ => exact crew_leave safe (handled_complete _ winsock)
  | receive winsock idle _ inFlight _ arrives =>
      exact crew_receive safe idle inFlight arrives.1 rfl
  | @echo worker client context atWork =>
      have empty := safe.unqueued worker _ _ atWork
      apply crew_requeue (crew_leave safe (handled_echoBack _ _))
      · exact (congrArg Job.working atWork).symm
      · rw [empty]
        exact orderly_echoed client context _
  | finish winsock atWork =>
      apply crew_finish safe atWork
      rw [handled_discard, SessionState.finish, handled_close, handled_preReceive]
  | @flush worker client connection rest winsock idle front =>
      have queued := safe.queued worker
      have short := safe.short worker
      rw [front] at queued short
      apply crew_requeue (crew_leave safe (handled_flush winsock))
      · exact (congrArg Job.working idle).symm
      · split
        · apply orderly_idle
          · intro request requestMem
            exact queued request (List.mem_cons_of_mem _ requestMem)
          · simp only [List.length_cons] at short
            omega
        · exact orderly_idle queued short

/-! ## The pool -/

theorem pool_same (pool : server.Pool) (sameManager : after.manager = server.manager)
    (sameIssued : ∀ client, issued (after.session (.client client)).trace =
      issued (server.session (.client client)).trace) : after.Pool := by
  rcases pool with ⟨freeOnce, free, count⟩
  constructor
  · rwa [sameManager]
  · intro client
    rw [sameManager, sameIssued]
    exact free client
  · rwa [sameManager]

/-- What issues and returns nothing keeps the pool. -/
theorem pool_steady (pool : server.Pool) {client : ClientId} {session : SessionState}
    (steady : Steady (server.session (.client client)) session) :
    (server.leave ⟨.client client, session, server.manager⟩).Pool := by
  have same : (server.leave ⟨.client client, session, server.manager⟩).manager =
      server.manager := rfl
  apply pool_same pool same
  intro other
  apply forall_leave fun self session =>
    issued session.trace = issued (server.session self).trace
  · exact steady.issued_eq
  · intro _ _
    rfl

theorem issued_issue (winsock : Winsock) (session : SessionState) :
    issued (session.issue winsock).trace = true :=
  (Quiet.issue winsock session).steady.issued_eq

/-- Issuing a session takes it out of the pool. -/
theorem pool_issue (pool : server.Pool) {client : ClientId} {rest : List ClientId}
    (taken : server.manager.mFreeSessionList = client :: rest) (winsock : Winsock) :
    (server.leave ⟨.client client, (server.session (.client client)).issue winsock,
      { server.manager with
        mFreeSessionList := rest
        mCurrentIssueCount := server.manager.mCurrentIssueCount + 1 }⟩).Pool := by
  rcases pool with ⟨freeOnce, free, count⟩
  rw [taken] at freeOnce free count
  rcases List.nodup_cons.mp freeOnce with ⟨notInRest, restOnce⟩
  constructor
  · exact restOnce
  · intro other
    by_cases same : other = client
    · subst same
      rw [session_leave_self, issued_issue]
      simpa [leave] using notInRest
    · rw [session_leave_of_ne (by simpa using same), ← free other]
      simp [leave, same]
  · simp only [leave, List.length_cons] at count ⊢
    omega

/-- A handler ends; the session may go back to the pool. -/
theorem pool_discard (pool : server.Pool) {client : ClientId} {session : SessionState}
    {context : OverlappedIOContext} (steady : Steady (server.session (.client client)) session)
    (isIssued : issued (server.session (.client client)).trace = true) :
    (server.leave ⟨.client client, session.discard context,
      repool client session server.manager⟩).Pool := by
  by_cases only : session.mRefCount = 1
  · rcases pool with ⟨freeOnce, free, count⟩
    simp only [SessionState.discard, repool, only, if_true]
    constructor
    · refine List.nodup_cons.mpr ⟨?_, freeOnce⟩
      rw [free, isIssued]
      simp
    · intro other
      by_cases same : other = client
      · subst same
        simp [leave, recycle, issued]
      · rw [session_leave_of_ne (by simpa using same), ← free other]
        simp [leave, same]
    · simp only [leave, List.length_cons]
      omega
  · simp only [SessionState.discard, repool, only, if_false]
    exact pool_steady pool (steady.trans (Quiet.drop context session).steady)

/-- Every change keeps the pool. -/
theorem pool_of_change (safe : server.Safe) (change : Change server action after) :
    after.Pool := by
  have pool := safe.toPool
  have setting {server : Server workers} (pool : server.Pool) (index : Fin workers)
      (worker : Worker) : (server.setWorker index worker).Pool :=
    ⟨pool.freeOnce, pool.free, pool.count⟩
  cases change with
  | issue winsock taken => exact pool_issue pool taken winsock
  | @outgoing action ran session acts outgoing opened =>
      have same : (server.leave ⟨.server ran, session, server.manager⟩).manager =
          server.manager := rfl
      apply pool_same pool same
      intro client
      rw [session_leave_of_ne (by simp)]
  | @handle worker client context completion winsock _ _ inFlight _ _ =>
      have dequeued : Steady (server.session (.client client))
          ((server.session (.client client)).dequeue context completion) := Steady.of_trace rfl
      apply pool_discard pool (dequeued.trans (Steady.handle context completion winsock _))
      exact issued_of_live (safe.settled client) (List.mem_append_left _ inFlight)
  | @receive worker client context completion winsock _ _ _ _ _ =>
      exact setting (pool_steady pool (Steady.cons (.received completion.data) trivial rfl)) _ _
  | echo _ => exact setting (pool_steady pool (Steady.echoBack ..)) _ _
  | @finish worker client context winsock atWork =>
      rcases safe.working _ _ _ (working_of_job atWork rfl) with ⟨_, handled, _⟩
      apply setting
      apply pool_discard pool (Steady.finish winsock _)
      exact issued_of_live (safe.settled client) (List.mem_append_right _ handled)
  | flush winsock _ _ => exact setting (pool_steady pool (Steady.flush winsock _)) _ _

/-! ## Every reachable state -/

/-- Every change keeps a server safe. -/
theorem safe_of_change (safe : server.Safe) (change : Change server action after) :
    after.Safe where
  toCrew := crew_of_change safe change
  toPool := pool_of_change safe change
  clients client := by
    rcases turn_of_change safe change client with same | turn
    · rw [same]
      exact safe.clients client
    · exact kept_turn (safe.clients client) turn
  servers := outgoing_of_change safe change

/-- Every reachable server is safe. -/
theorem safe_of_reachable (reachable : (machine workers).Reachable server) : server.Safe := by
  apply reachable.invariant
  · rintro first ⟨raw, rfl⟩
    exact safe_start raw workers
  · intro before action after _ safe step
    exact safe_of_change safe (safe.change_of_step step)

/-- Every step from a reachable server is one of the changes. -/
theorem change_of_reachable (reachable : (machine workers).Reachable server)
    (step : (machine workers).Step server action after) : Change server action after :=
  (safe_of_reachable reachable).change_of_step step

/-- A law of client sessions that every turn keeps. -/
theorem law_of_reachable {Law : SessionState → Prop}
    (reachable : (machine workers).Reachable server)
    (initially : ∀ raw client, Law ((Server.start workers raw).session (.client client)))
    (turns : ∀ session after, session.Kept → Law session → Turn session after → Law after)
    (client : ClientId) : Law (server.session (.client client)) := by
  revert client
  apply reachable.invariant
  · rintro first ⟨raw, rfl⟩
    exact initially raw
  · intro before action after reached holds step client
    have safe := safe_of_reachable reached
    rcases turn_of_change safe (safe.change_of_step step) client with same | turn
    · rw [same]
      exact holds client
    · exact turns _ _ (safe.clients client) (holds client) turn

/-- Every reachable session keeps track of its contexts. -/
theorem tracked_of_reachable (reachable : (machine workers).Reachable server) (client : ClientId) :
    (server.session (.client client)).Tracked := by
  apply law_of_reachable reachable
  · intro raw client
    refine ⟨?_, List.nodup_nil, List.Perm.refl _⟩
    intro address addressMem
    cases addressMem
  · intro session after kept tracked turn
    exact tracked_turn tracked kept turn

/-- No reachable session is returned twice. -/
theorem returns_of_reachable (reachable : (machine workers).Reachable server) (client : ClientId) :
    (server.session (.client client)).Returns := by
  apply law_of_reachable reachable
  · intro raw client
    exact ⟨Nat.zero_le 1, fun _ => rfl⟩
  · intro session after kept returns turn
    exact returns_turn returns kept turn

/-! ## Given runs -/

/-- The run does not stop and ends in a state that passes the check. -/
def passes (check : Server workers → Bool) : Except Stop (Server workers) → Bool
  | .ok server => check server
  | .error _ => false

variable {check : Server workers → Bool} {raw : RawMemory} {actions : List (Action workers)}

theorem exists_run_of_follow {Label : Type} {target : Machine (Server workers) Label}
    {next : Server workers → Label → Except Stop (Server workers)} {first : Server workers}
    {labels : List Label}
    (stepped : ∀ before label after, next before label = .ok after →
      target.Step before label after)
    (passed : passes check (Machine.follow next first labels) = true) :
    ∃ server steps, target.Run first steps server ∧ steps.map Prod.snd = labels ∧
      check server = true := by
  cases ran : Machine.follow next first labels with
  | ok final =>
      rw [ran] at passed
      rcases Machine.run_of_follow stepped ran with ⟨steps, run, same⟩
      exact ⟨final, steps, run, same, passed⟩
  | error stop =>
      rw [ran] at passed
      cases passed

theorem exists_run_of_passes
    (passed : passes check ((Server.start workers raw).runs actions) = true) :
    ∃ server steps, (machine workers).Run (.start workers raw) steps server ∧
      steps.map Prod.snd = actions ∧ check server = true :=
  exists_run_of_follow (fun _ _ _ step => step) passed

theorem exists_of_passes
    (passed : passes check ((Server.start workers raw).runs actions) = true) :
    ∃ server, (machine workers).Reachable server ∧ check server = true := by
  rcases exists_run_of_passes passed with ⟨server, steps, run, _, checked⟩
  exact ⟨server, ⟨_, steps, ⟨raw, rfl⟩, run⟩, checked⟩

end Server

/-! ## One connection -/

/-- Every call succeeds. -/
def Winsock.succeeding : Winsock :=
  ⟨true, true, true, true, true, true, true, true, true, true, true, true⟩

/-- The back of the free list at the start. -/
def firstClient : ClientId := ⟨9999, by decide⟩

/-- A completion of no bytes. -/
def Completion.empty : Completion := ⟨true, 0, []⟩

/-- A context without a window. -/
def plainContext (address : ℕ) (mIoType : IOType) : OverlappedIOContext :=
  ⟨address, mIoType, ⟨0, none⟩, .drNone, []⟩

/-- A receive into the empty receive buffer. -/
def recvContext (address : ℕ) : OverlappedIOContext :=
  ⟨address, .ioRecv, ⟨clientBufSize, some 0⟩, .drNone, []⟩

section Connection

variable {workers : ℕ} (worker : Fin workers)

/-- Issued, accepted, and waiting for bytes with context 1. -/
def accepting : List (Action workers) :=
  [.acceptClientSession .succeeding,
    .doIocpJob worker (.client firstClient) (plainContext 0 .ioAccept) .empty .succeeding]

/-- One byte arrives for the waiting context and is echoed to the send buffer. -/
def receiving (waiting recv : ℕ) (byte : UInt8) : List (Action workers) :=
  [.doIocpJob worker (.client firstClient) (plainContext waiting .ioRecvZero) .empty .succeeding,
    .doIocpJob worker (.client firstClient) (recvContext recv) ⟨true, 1, [byte]⟩ .succeeding,
    .echoBack worker]

/-- A connection on which one byte comes and goes back, until its client closes it and the
session is returned. -/
def serving : List (Action workers) :=
  accepting worker ++ receiving worker 1 2 7 ++
    [.finishRecv worker .succeeding,
      .doSendJob worker .succeeding,
      .doIocpJob worker (.client firstClient) ⟨4, .ioSend, ⟨1, some 0⟩, .drNone, [7]⟩ ⟨true, 1, []⟩
        .succeeding,
      .doIocpJob worker (.client firstClient) (plainContext 3 .ioRecvZero) .empty .succeeding,
      .doIocpJob worker (.client firstClient) (recvContext 5) .empty .succeeding,
      .doIocpJob worker (.client firstClient) ⟨6, .ioDisconnect, ⟨0, none⟩, .drCompletionError, []⟩
        .empty .succeeding]

end Connection

end Gsp.Homework5
