import Gsp.Homework5.Reached

/-!
# Queued sessions that are recycled

A session in the send list of a worker is not referenced by that list. It goes
back to the pool while it is queued exactly if its last reference is dropped then.
-/

namespace Gsp.Homework5

namespace SessionState

variable {session : SessionState} {context : OverlappedIOContext}

/-! ## When a handler drops the last reference -/

/-- An overlapped call releases nothing. -/
theorem mRefCount_attempt_le (accepted : Bool) :
    session.mRefCount ≤ (session.attempt accepted context).mRefCount := by
  simp only [attempt]
  split
  · simp only [post]
    omega
  · exact Int.le_refl _

theorem mRefCount_disconnect_le (dr : DisconnectReason) (winsock : Winsock) :
    session.mRefCount ≤ (session.disconnect dr winsock).mRefCount := by
  simp only [disconnect]
  split
  · exact Int.le_refl _
  · split <;> exact @mRefCount_attempt_le { session with mConnected := false } _ _

theorem mRefCount_preReceive_le (winsock : Winsock) :
    session.mRefCount ≤ (session.preReceive winsock).2.mRefCount := by
  simp only [preReceive]
  split
  · exact Int.le_refl _
  · exact mRefCount_attempt_le _

theorem mRefCount_postReceive_le (winsock : Winsock) :
    session.mRefCount ≤ (session.postReceive winsock).2.mRefCount := by
  simp only [postReceive]
  split
  · exact Int.le_refl _
  · split
    · exact Int.le_refl _
    · exact @mRefCount_attempt_le session.query _ _

theorem mRefCount_close_le (winsock : Winsock) (result : Bool × SessionState) :
    result.2.mRefCount ≤ (close winsock result).mRefCount := by
  simp only [close]
  split
  · exact Int.le_refl _
  · exact mRefCount_disconnect_le ..

theorem mRefCount_accepted_le (winsock : Winsock) :
    session.mRefCount ≤ (session.accepted winsock).mRefCount := by
  simp only [accepted]
  split
  · have counted :=
      @mRefCount_preReceive_le { session with mConnected := true, attached := true } winsock
    split
    · exact counted
    · exact counted
  · exact @mRefCount_disconnect_le { session with mConnected := true } _ winsock

/-- Only a completed disconnect releases a reference by itself. -/
theorem mRefCount_handle_le (kind : context.mIoType ≠ .ioDisconnect) (completion : Completion)
    (winsock : Winsock) :
    session.mRefCount ≤ (session.handle context completion winsock).mRefCount := by
  simp only [handle]
  split
  · split
    · exact @mRefCount_disconnect_le (session.record .sendFailed) _ winsock
    · exact mRefCount_disconnect_le ..
  · split
    · contradiction
    · exact mRefCount_accepted_le winsock
    · exact (mRefCount_postReceive_le winsock).trans (mRefCount_close_le ..)
    · exact mRefCount_close_le winsock (_, session.sendCompletion context completion.dwTransferred)
    · exact Int.le_refl _

theorem mRefCount_finish_le (winsock : Winsock) :
    session.mRefCount ≤ (session.finish winsock).mRefCount :=
  (mRefCount_preReceive_le winsock).trans (mRefCount_close_le ..)

/-- A handler does nothing more for a session that is already closed. -/
theorem mRefCount_handle_closed (closed : session.mConnected = false)
    (notAccept : context.mIoType ≠ .ioAccept) (notDisconnect : context.mIoType ≠ .ioDisconnect)
    (completion : Completion) (winsock : Winsock) :
    (session.handle context completion winsock).mRefCount = session.mRefCount := by
  simp only [handle]
  split
  · split <;> simp [disconnect, closed, record]
  · split
    · contradiction
    · contradiction
    · simp [postReceive, closed, close, disconnect]
    · simp only [close]
      split
      · rfl
      · simp [disconnect, closed, sendCompletion, record]
    · rfl

theorem mRefCount_finish_closed (closed : session.mConnected = false) (winsock : Winsock) :
    (session.finish winsock).mRefCount = session.mRefCount := by
  simp [finish, preReceive, closed, close, disconnect]

/-- Down to the context being handled, a session is closed and does not accept. -/
theorem closed_of_single (settled : session.Settled) (contextMem : context ∈ session.live)
    (single : session.mRefCount = 1) :
    session.mConnected = false ∧ context.mIoType ≠ .ioAccept := by
  have references := references_eq settled.balanced
  have some := List.length_pos_of_mem contextMem
  have support := settled.balanced.support
  have flags := settled.balanced.flags
  have roles := settled.balanced.roles
  have none : issueRef session.trace = 0 := by omega
  simp only [account, none] at support flags roles
  constructor
  · have flag : session.mConnected.toNat = 0 := by omega
    simpa using flag
  · intro kind
    have positive := role_pos contextMem
    rw [kind] at positive
    omega

/-- A completion releases the last reference when it is the only one. -/
theorem last_of_complete (settled : session.Settled) (inFlight : context ∈ session.inFlight)
    (completion : Completion) (winsock : Winsock) :
    (session.complete context completion winsock).mRefCount = 1 ↔
      session.mRefCount = if context.mIoType = .ioDisconnect then 2 else 1 := by
  have contextMem : context ∈ session.live := List.mem_append_left _ inFlight
  have references := references_eq settled.balanced
  have some := List.length_pos_of_mem contextMem
  by_cases kind : context.mIoType = .ioDisconnect
  · have completed : (session.complete context completion winsock).mRefCount =
        session.mRefCount - 1 := by
      simp only [complete, handle, kind, reduceCtorEq, or_self, and_false, if_false]
      rfl
    rw [completed, if_pos kind]
    omega
  · rw [if_neg kind]
    have most : session.mRefCount ≤ (session.complete context completion winsock).mRefCount :=
      @mRefCount_handle_le (session.dequeue context completion) context kind completion winsock
    constructor
    · intro last
      omega
    · intro single
      rcases closed_of_single settled contextMem single with ⟨closed, notAccept⟩
      rw [← single]
      exact @mRefCount_handle_closed (session.dequeue context completion) context closed notAccept
        kind completion winsock

/-- The end of a receive releases the last reference when it is the only one. -/
theorem last_of_finish (settled : session.Settled) (handled : context ∈ session.handled)
    (winsock : Winsock) : (session.finish winsock).mRefCount = 1 ↔ session.mRefCount = 1 := by
  have contextMem : context ∈ session.live := List.mem_append_right _ handled
  have references := references_eq settled.balanced
  have some := List.length_pos_of_mem contextMem
  have most : session.mRefCount ≤ (session.finish winsock).mRefCount := mRefCount_finish_le winsock
  constructor
  · intro last
    omega
  · intro single
    rw [mRefCount_finish_closed (closed_of_single settled contextMem single).1, single]

end SessionState

namespace Server

open SessionState SessionScope

variable {workers : ℕ} {server after : Server workers} {action : Action workers}

/-- A queued client session is in the pool, or issued to a later connection. -/
def Overtaken (server : Server workers) : Prop :=
  ∃ worker, ∃ request ∈ (server.worker worker).LSendRequestSessionList, ∃ client,
    request.session = .client client ∧
      (client ∈ server.manager.mFreeSessionList ∨
        request.connection < connections (server.session (.client client)).trace)

/-- Some worker has the session in its send list. -/
def Queued (server : Server workers) (client : ClientId) : Prop :=
  ∃ worker, ∃ request ∈ (server.worker worker).LSendRequestSessionList,
    request.session = .client client

/-- The step drops the last reference of the session. -/
def Drops (server : Server workers) (client : ClientId) : Action workers → Prop
  | .doIocpJob _ self context completion _ =>
      self = .client client ∧ ¬Arrives context completion ∧
        (server.session (.client client)).mRefCount =
          if context.mIoType = .ioDisconnect then 2 else 1
  | .finishRecv worker _ =>
      (∃ context, (server.worker worker).job = .echoed (.client client) context) ∧
        (server.session (.client client)).mRefCount = 1
  | _ => False

/-- The step drops the last reference of a session that is queued. -/
def DropsQueued (server : Server workers) (action : Action workers) : Prop :=
  ∃ client, server.Drops client action ∧ server.Queued client

/-- The request is still for the connection it was queued for. -/
def Current (server : Server workers) (request : SendRequest) : Prop :=
  ∀ client, request.session = .client client →
    client ∉ server.manager.mFreeSessionList ∧
      connections (server.session (.client client)).trace ≤ request.connection

/-- Nothing is overtaken when every request is for its connection. -/
theorem not_overtaken_iff : ¬server.Overtaken ↔
    ∀ worker, ∀ request ∈ (server.worker worker).LSendRequestSessionList,
      server.Current request := by
  constructor
  · intro notOvertaken worker request requestMem client ofClient
    constructor
    · intro free
      exact notOvertaken ⟨worker, request, requestMem, client, ofClient, Or.inl free⟩
    · by_contra later
      exact notOvertaken ⟨worker, request, requestMem, client, ofClient,
        Or.inr (Nat.not_le.mp later)⟩
  · rintro current ⟨worker, request, requestMem, client, ofClient, free | later⟩
    · exact (current worker request requestMem client ofClient).1 free
    · exact absurd later (Nat.not_lt.mpr (current worker request requestMem client ofClient).2)

/-- The pool and the connections stay as they are. -/
theorem current_of_same {request : SendRequest} (current : server.Current request)
    (sameFree : after.manager.mFreeSessionList = server.manager.mFreeSessionList)
    (sameConnections : ∀ client, connections (after.session (.client client)).trace =
      connections (server.session (.client client)).trace) : after.Current request := by
  intro client ofClient
  rw [sameFree, sameConnections]
  exact current client ofClient

theorem connections_leave {ran : ClientId} {session : SessionState} {manager : ClientSessionManager}
    (same : connections session.trace = connections (server.session (.client ran)).trace)
    (client : ClientId) :
    connections ((server.leave ⟨.client ran, session, manager⟩).session (.client client)).trace =
      connections (server.session (.client client)).trace := by
  apply forall_leave fun self session =>
    connections session.trace = connections (server.session self).trace
  · exact same
  · intro _ _
    rfl

theorem current_issue {client : ClientId} {rest : List ClientId}
    (taken : server.manager.mFreeSessionList = client :: rest) (winsock : Winsock)
    {request : SendRequest} (current : server.Current request) :
    (server.leave ⟨.client client, (server.session (.client client)).issue winsock,
      { server.manager with
        mFreeSessionList := rest
        mCurrentIssueCount := server.manager.mCurrentIssueCount + 1 }⟩).Current request := by
  intro other ofClient
  rcases current other ofClient with ⟨notFree, notLater⟩
  rw [taken] at notFree
  have ne : other ≠ client := by
    rintro rfl
    exact notFree List.mem_cons_self
  constructor
  · intro free
    exact notFree (List.mem_cons_of_mem client free)
  · rwa [session_leave_of_ne (by simpa using ne)]

/-- A handler ends. -/
theorem current_discard_iff {client : ClientId} {session : SessionState}
    {context : OverlappedIOContext} (steady : Steady (server.session (.client client)) session)
    {request : SendRequest} (current : server.Current request) :
    (server.leave ⟨.client client, session.discard context,
      repool client session server.manager⟩).Current request ↔
      ¬(session.mRefCount = 1 ∧ request.session = .client client) := by
  have same : ∀ other, connections ((server.leave ⟨.client client, session.discard context,
      repool client session server.manager⟩).session (.client other)).trace =
      connections (server.session (.client other)).trace := by
    apply connections_leave
    rw [connections_discard, steady.connections_eq]
  by_cases last : session.mRefCount = 1
  · constructor
    · rintro now ⟨_, ofClient⟩
      apply (now client ofClient).1
      simp only [leave, repool, last, if_true]
      exact List.mem_cons_self
    · intro other client' ofClient
      rcases current client' ofClient with ⟨notFree, notLater⟩
      constructor
      · simp only [leave, repool, last, if_true]
        intro free
        rcases List.mem_cons.mp free with rfl | free
        · exact other ⟨last, ofClient⟩
        · exact notFree free
      · rwa [same]
  · constructor
    · rintro _ ⟨now, _⟩
      exact last now
    · intro _
      apply current_of_same current _ same
      simp only [leave, repool, last, if_false]

/-- A handler overtakes a queued session exactly if it drops its last reference. -/
theorem overtaken_discard_iff {client : ClientId} {session : SessionState}
    {context : OverlappedIOContext} (steady : Steady (server.session (.client client)) session)
    (fresh : ¬server.Overtaken)
    (sameQueues : ∀ worker, (after.worker worker).LSendRequestSessionList =
      (server.worker worker).LSendRequestSessionList)
    (ran : after.session = (server.leave ⟨.client client, session.discard context,
      repool client session server.manager⟩).session)
    (pooled : after.manager = repool client session server.manager) :
    after.Overtaken ↔ session.mRefCount = 1 ∧ server.Queued client := by
  have current := not_overtaken_iff.mp fresh
  have now (request : SendRequest) : after.Current request ↔
      (server.leave ⟨.client client, session.discard context,
        repool client session server.manager⟩).Current request := by
    simp only [Current, ran, pooled]
    rfl
  rw [← not_iff_not, not_overtaken_iff]
  constructor
  · rintro all ⟨last, worker, request, requestMem, ofClient⟩
    have still := all worker request (by rwa [sameQueues])
    rw [now, current_discard_iff steady (current worker request requestMem)] at still
    exact still ⟨last, ofClient⟩
  · intro none worker request requestMem
    rw [sameQueues] at requestMem
    rw [now, current_discard_iff steady (current worker request requestMem)]
    rintro ⟨last, ofClient⟩
    exact none ⟨last, worker, request, requestMem, ofClient⟩

/-- A worker changes its queue. -/
theorem current_requeue {index : Fin workers} {worker : Worker}
    (others : ∀ other, ∀ request ∈ (server.worker other).LSendRequestSessionList,
      server.Current request)
    (now : ∀ request ∈ worker.LSendRequestSessionList, server.Current request) :
    ¬(server.setWorker index worker).Overtaken := by
  rw [not_overtaken_iff]
  intro other request requestMem
  by_cases same : other = index
  · subst same
    rw [worker_setWorker_self] at requestMem
    exact now request requestMem
  · rw [worker_setWorker_of_ne same] at requestMem
    exact others other request requestMem

theorem current_leave {ran : ClientId} {session : SessionState}
    (steady : Steady (server.session (.client ran)) session) {request : SendRequest}
    (current : server.Current request) :
    (server.leave ⟨.client ran, session, server.manager⟩).Current request := by
  apply current_of_same current
  · rfl
  · exact connections_leave steady.connections_eq

section Steps

variable {worker : Fin workers} {client : ClientId} {context : OverlappedIOContext}
  {completion : Completion}

/-- A completion overtakes a request when it returns a queued session. -/
theorem overtaken_handle_iff (safe : server.Safe) (fresh : ¬server.Overtaken)
    (inFlight : context ∈ (server.session (.client client)).inFlight)
    (notArrives : ¬Arrives context completion) (winsock : Winsock) :
    (server.leave ⟨.client client,
      ((server.session (.client client)).complete context completion winsock).discard context,
      repool client ((server.session (.client client)).complete context completion winsock)
        server.manager⟩).Overtaken ↔
      server.DropsQueued (.doIocpJob worker (.client client) context completion winsock) := by
  have steady : Steady (server.session (.client client))
      ((server.session (.client client)).complete context completion winsock) :=
    Steady.trans (Steady.of_trace rfl) (Steady.handle context completion winsock _)
  have overtaken_iff := @overtaken_discard_iff _ server (server.leave ⟨.client client,
    ((server.session (.client client)).complete context completion winsock).discard context,
    repool client ((server.session (.client client)).complete context completion winsock)
      server.manager⟩) client _ context steady fresh (fun _ => rfl) rfl rfl
  have last := last_of_complete (safe.settled client) inFlight completion winsock
  rw [overtaken_iff]
  constructor
  · rintro ⟨only, queued⟩
    exact ⟨client, ⟨rfl, notArrives, last.mp only⟩, queued⟩
  · rintro ⟨other, ⟨same, _, only⟩, queued⟩
    cases same
    exact ⟨last.mpr only, queued⟩

/-- The end of a receive overtakes a request when it returns a queued session. -/
theorem overtaken_finish_iff (safe : server.Safe) (fresh : ¬server.Overtaken)
    (atWork : (server.worker worker).job = .echoed (.client client) context) (winsock : Winsock) :
    ((server.leave ⟨.client client,
      ((server.session (.client client)).finish winsock).discard context,
      repool client ((server.session (.client client)).finish winsock)
        server.manager⟩).setWorker worker
        ⟨(server.worker worker).LSendRequestSessionList, .idle⟩).Overtaken ↔
      server.DropsQueued (.finishRecv worker winsock) := by
  rcases safe.working worker _ _ (working_of_job atWork rfl) with ⟨_, handled, _⟩
  have sameQueues (other : Fin workers) : (((server.leave ⟨.client client,
      ((server.session (.client client)).finish winsock).discard context,
      repool client ((server.session (.client client)).finish winsock)
        server.manager⟩).setWorker worker ⟨(server.worker worker).LSendRequestSessionList,
          .idle⟩).worker other).LSendRequestSessionList =
      (server.worker other).LSendRequestSessionList := by
    by_cases same : other = worker
    · subst same
      rw [worker_setWorker_self]
    · rw [worker_setWorker_of_ne same]
      rfl
  have last := last_of_finish (safe.settled client) handled winsock
  rw [overtaken_discard_iff (Steady.finish winsock _) fresh sameQueues rfl rfl]
  constructor
  · rintro ⟨only, queued⟩
    exact ⟨client, ⟨⟨context, atWork⟩, last.mp only⟩, queued⟩
  · rintro ⟨other, ⟨⟨otherContext, stillWork⟩, only⟩, queued⟩
    rw [atWork] at stillWork
    cases stillWork
    exact ⟨last.mpr only, queued⟩

/-- Issuing a session overtakes nothing. -/
theorem fresh_issue {rest : List ClientId} (fresh : ¬server.Overtaken)
    (taken : server.manager.mFreeSessionList = client :: rest) (winsock : Winsock) :
    ¬(server.leave ⟨.client client, (server.session (.client client)).issue winsock,
      { server.manager with
        mFreeSessionList := rest
        mCurrentIssueCount := server.manager.mCurrentIssueCount + 1 }⟩).Overtaken := by
  rw [not_overtaken_iff] at fresh ⊢
  intro worker request requestMem
  exact current_issue taken winsock (fresh worker request requestMem)

theorem fresh_outgoing {index : ℕ} (fresh : ¬server.Overtaken) (session : SessionState) :
    ¬(server.leave ⟨.server index, session, server.manager⟩).Overtaken := by
  rw [not_overtaken_iff] at fresh ⊢
  intro worker request requestMem
  apply current_of_same (fresh worker request requestMem)
  · rfl
  · intro client
    rw [session_leave_of_ne (by simp)]

/-- A request for the present connection overtakes nothing. -/
theorem fresh_requeue {session : SessionState} {after : Worker} (fresh : ¬server.Overtaken)
    (steady : Steady (server.session (.client client)) session)
    (now : ∀ request ∈ after.LSendRequestSessionList,
      request ∈ (server.worker worker).LSendRequestSessionList ∨
        (server.leave ⟨.client client, session, server.manager⟩).Current request) :
    ¬((server.leave ⟨.client client, session, server.manager⟩).setWorker worker
      after).Overtaken := by
  have current := not_overtaken_iff.mp fresh
  apply current_requeue
  · intro other request requestMem
    exact current_leave steady (current other request requestMem)
  · intro request requestMem
    rcases now request requestMem with old | new
    · exact current_leave steady (current worker request old)
    · exact new

/-- The session is out of the pool, so the new entry is for its connection. -/
theorem current_echo (safe : server.Safe)
    (atWork : (server.worker worker).job = .recvCompleted (.client client) context)
    {session : SessionState} (steady : Steady (server.session (.client client)) session) :
    (server.leave ⟨.client client, session, server.manager⟩).Current
      ⟨.client client, connections (server.session (.client client)).trace⟩ := by
  rcases safe.working worker _ _ (working_of_job atWork rfl) with ⟨_, handled, _⟩
  have isIssued := issued_of_live (safe.settled client) (List.mem_append_right _ handled)
  intro other ofClient
  cases ofClient
  constructor
  · intro free
    have notIssued := (safe.free client).mp free
    rw [isIssued] at notIssued
    cases notIssued
  · rw [connections_leave steady.connections_eq]

/-- Echoed bytes are requested for the connection that sent them. -/
theorem fresh_echo (safe : server.Safe) (fresh : ¬server.Overtaken)
    (atWork : (server.worker worker).job = .recvCompleted (.client client) context) :
    ¬((server.leave ⟨.client client, ((server.session (.client client)).echoBack (.client client)
      (server.worker worker).LSendRequestSessionList).2, server.manager⟩).setWorker worker
        ⟨((server.session (.client client)).echoBack (.client client)
          (server.worker worker).LSendRequestSessionList).1,
          .echoed (.client client) context⟩).Overtaken := by
  have steady := Steady.echoBack (.client client)
    (server.worker worker).LSendRequestSessionList (server.session (.client client))
  apply fresh_requeue fresh steady
  intro request requestMem
  rcases echoBack_cases (.client client) (server.worker worker).LSendRequestSessionList
    (server.session (.client client)) with echo | echo | ⟨_, _, echo⟩
  · left
    simpa only [echo] using requestMem
  · left
    simpa only [echo] using requestMem
  · simp only [echo] at requestMem
    rcases List.mem_append.mp requestMem with old | new
    · exact Or.inl old
    · right
      rw [List.mem_singleton.mp new]
      exact current_echo safe atWork steady

end Steps

/-- A step overtakes a queued session exactly if it drops its last reference. -/
theorem overtaken_iff_dropsQueued (safe : server.Safe) (fresh : ¬server.Overtaken)
    (change : Change server action after) : after.Overtaken ↔ server.DropsQueued action := by
  have keeps (still : ¬after.Overtaken) (never : ∀ client, ¬server.Drops client action) :
      after.Overtaken ↔ server.DropsQueued action := by
    refine ⟨fun overtaken => absurd overtaken still, ?_⟩
    rintro ⟨client, drops, _⟩
    exact absurd drops (never client)
  cases change with
  | handle winsock _ _ inFlight _ notArrives =>
      exact overtaken_handle_iff safe fresh inFlight notArrives winsock
  | finish winsock atWork => exact overtaken_finish_iff safe fresh atWork winsock
  | issue winsock taken => exact keeps (fresh_issue fresh taken winsock) (fun _ => id)
  | @outgoing action ran session acts _ _ =>
      apply keeps (fresh_outgoing fresh session)
      intro client drops
      cases action with
      | doIocpJob worker self context completion winsock =>
          have ofServer : self = .server ran := acts
          rw [drops.1] at ofServer
          cases ofServer
      | connectRequest _ _ => exact drops.elim
      | acceptClientSession _ => exact drops.elim
      | echoBack _ => exact drops.elim
      | finishRecv _ _ => exact acts.elim
      | doSendJob _ _ => exact drops.elim
  | @receive worker client context completion winsock _ _ _ _ arrives =>
      apply keeps
      · apply fresh_requeue fresh (Steady.cons (.received completion.data) trivial rfl)
        intro request requestMem
        cases requestMem
      · rintro other ⟨_, notArrives, _⟩
        exact notArrives arrives
  | echo atWork => exact keeps (fresh_echo safe fresh atWork) (fun _ => id)
  | @flush worker client connection rest winsock _ front =>
      apply keeps _ (fun _ => id)
      apply fresh_requeue fresh (Steady.flush winsock _)
      intro request requestMem
      left
      rw [front]
      simp only at requestMem
      split at requestMem
      · exact List.mem_cons_of_mem _ requestMem
      · exact requestMem

/-! ## The connection of an entry -/

/-- An entry is an old one, or has just been made for the current connection. -/
theorem request_of_change (change : Change server action after) (worker : Fin workers)
    {request : SendRequest} (requestMem : request ∈ (after.worker worker).LSendRequestSessionList) :
    request ∈ (server.worker worker).LSendRequestSessionList ∨
      ∃ client,
        request = ⟨.client client, connections (server.session (.client client)).trace⟩ := by
  have requeued {before : Server workers} {index : Fin workers} {changed : Worker}
      (sameWorker : before.worker = server.worker)
      (now : request ∈ changed.LSendRequestSessionList →
        request ∈ (server.worker index).LSendRequestSessionList ∨ ∃ client,
          request = ⟨.client client, connections (server.session (.client client)).trace⟩)
      (inQueue :
        request ∈ ((before.setWorker index changed).worker worker).LSendRequestSessionList) :
      request ∈ (server.worker worker).LSendRequestSessionList ∨ ∃ client,
        request = ⟨.client client, connections (server.session (.client client)).trace⟩ := by
    by_cases same : worker = index
    · subst same
      rw [worker_setWorker_self] at inQueue
      exact now inQueue
    · rw [worker_setWorker_of_ne same, sameWorker] at inQueue
      exact Or.inl inQueue
  cases change with
  | issue _ _ => exact Or.inl requestMem
  | outgoing _ _ _ => exact Or.inl requestMem
  | handle _ _ _ _ _ _ => exact Or.inl requestMem
  | receive _ _ _ _ _ _ =>
      apply requeued rfl _ requestMem
      intro impossible
      cases impossible
  | @echo index client context _ =>
      apply requeued rfl _ requestMem
      intro inQueue
      rcases echoBack_cases (.client client) (server.worker index).LSendRequestSessionList
        (server.session (.client client)) with echo | echo | ⟨_, _, echo⟩
      · left
        simpa only [echo] using inQueue
      · left
        simpa only [echo] using inQueue
      · simp only [echo] at inQueue
        rcases List.mem_append.mp inQueue with old | new
        · exact Or.inl old
        · exact Or.inr ⟨client, List.mem_singleton.mp new⟩
  | finish _ _ =>
      apply requeued rfl _ requestMem
      intro inQueue
      exact Or.inl inQueue
  | @flush index client connection rest winsock _ front =>
      apply requeued rfl _ requestMem
      intro inQueue
      left
      rw [front]
      simp only at inQueue
      split at inQueue
      · exact List.mem_cons_of_mem _ inQueue
      · exact inQueue

/-- No entry is for a connection to come. -/
theorem begun_of_reachable (reachable : (machine workers).Reachable server) :
    ∀ worker, ∀ request ∈ (server.worker worker).LSendRequestSessionList, ∀ client,
      request.session = .client client →
        request.connection ≤ connections (server.session (.client client)).trace := by
  apply reachable.invariant
  · rintro first ⟨raw, rfl⟩ worker request requestMem
    cases requestMem
  · intro before action after reached begun step worker request requestMem client ofClient
    have safe := safe_of_reachable reached
    have change := safe.change_of_step step
    have grows : connections (before.session (.client client)).trace ≤
        connections (after.session (.client client)).trace := by
      rcases turn_of_change safe change client with same | turn
      · rw [same]
      · rcases connections_turn turn with same | ⟨_, more⟩
        · rw [same]
        · rw [more]
          exact Nat.le_succ _
    rcases request_of_change change worker requestMem with old | ⟨other, new⟩
    · exact (begun worker request old client ofClient).trans grows
    · rw [new] at ofClient ⊢
      cases ofClient
      exact grows

/-- Every entry is for the connection that its session is on, so that a flush acts
on no other. -/
def FlushesOwn (server : Server workers) : Prop :=
  ∀ worker, ∀ request ∈ (server.worker worker).LSendRequestSessionList, ∀ client,
    request.session = .client client →
      issued (server.session (.client client)).trace = true ∧
        connections (server.session (.client client)).trace = request.connection

/-- A worker flushes the connection that asked for it. -/
theorem flushesOwn_of_fresh (reachable : (machine workers).Reachable server)
    (fresh : ¬server.Overtaken) : server.FlushesOwn := by
  intro worker request requestMem client ofClient
  rcases not_overtaken_iff.mp fresh worker request requestMem client ofClient with
    ⟨notFree, notLater⟩
  constructor
  · rw [(safe_of_reachable reachable).free, Bool.not_eq_false] at notFree
    exact notFree
  · exact Nat.le_antisymm notLater
      (begun_of_reachable reachable worker request requestMem client ofClient)

/-! ## Functions in one go -/

variable {call : Call workers}

/-- A whole `DoIocpJob` is one step, or a receive in three. -/
theorem wholeJob_cases {worker : Fin workers} {self : SessionId} {context : OverlappedIOContext}
    {completion : Completion} {winsock : Winsock}
    (ran : server.wholeJob worker self context completion winsock = .ok after) :
    ∃ received, server.step (.doIocpJob worker self context completion winsock) = .ok received ∧
      ((received = after ∧ (after.worker worker).job = .idle) ∨
        ∃ echoed, received.step (.echoBack worker) = .ok echoed ∧
          echoed.step (.finishRecv worker winsock) = .ok after) := by
  rcases Except.bind_eq_ok.mp ran with ⟨received, handled, rest⟩
  refine ⟨received, handled, ?_⟩
  split at rest
  · next idle =>
      cases rest
      exact Or.inl ⟨rfl, idle⟩
  · rcases Except.bind_eq_ok.mp rest with ⟨echoed, echo, finish⟩
    exact Or.inr ⟨echoed, echo, finish⟩

/-- What each iteration keeps, `AcceptClientSessions` keeps. -/
theorem acceptClientSessions_invariant {Holds : Server workers → Prop}
    (kept : ∀ before winsock after, Holds before →
      before.step (.acceptClientSession winsock) = .ok after → Holds after)
    {outcomes : List Winsock} {accepted : Bool} (holds : Holds server)
    (ran : server.acceptClientSessions outcomes = .ok (accepted, after)) : Holds after := by
  induction outcomes generalizing server with
  | nil =>
      simp only [acceptClientSessions] at ran
      split at ran
      · cases ran
      · cases ran
        exact holds
  | cons winsock outcomes ih =>
      rcases Except.bind_eq_ok.mp ran with ⟨⟨posted, middle⟩, iteration, rest⟩
      have middleHolds : Holds middle := by
        apply kept server winsock middle holds
        simp only [Server.step, iteration]
        rfl
      simp only at rest
      split at rest
      · exact ih middleHolds rest
      · cases rest
        exact middleHolds

theorem reachable_of_call (reachable : (machine workers).Reachable server)
    (ran : server.call call = .ok after) : (machine workers).Reachable after := by
  cases call with
  | acceptClientSessions outcomes =>
      rcases Except.map_eq_ok.mp ran with ⟨⟨accepted, _⟩, calls, rfl⟩
      apply acceptClientSessions_invariant _ reachable calls
      intro before winsock middle reached iteration
      have step : (machine workers).Step before (.acceptClientSession winsock) middle := iteration
      exact reached.step step
  | connectRequest index winsock =>
      have step : (machine workers).Step server (.connectRequest index winsock) after := ran
      exact reachable.step step
  | doIocpJob worker self context completion winsock =>
      rcases wholeJob_cases ran with ⟨received, first, ⟨rfl, _⟩ | ⟨echoed, second, third⟩⟩
      · exact reachable.step first
      · have echo : (machine workers).Step received (.echoBack worker) echoed := second
        have finish : (machine workers).Step echoed (.finishRecv worker winsock) after := third
        exact ((reachable.step first).step echo).step finish
  | doSendJob worker winsock =>
      have step : (machine workers).Step server (.doSendJob worker winsock) after := ran
      exact reachable.step step

/-- A run of whole calls is a run of steps. -/
theorem reachable_of_calls (reachable : (callMachine workers).Reachable server) :
    (machine workers).Reachable server := by
  apply reachable.invariant
  · intro first initial
    exact .ofInitial initial
  · intro before call after _ reached step
    exact reachable_of_call reached step

/-- The handled completion holds the last reference of a session that is queued. -/
def Overtakes (server : Server workers) : Call workers → Prop
  | .doIocpJob _ (.client client) context _ _ =>
      (server.session (.client client)).mRefCount =
        (if context.mIoType = .ioDisconnect then 2 else 1) ∧ server.Queued client
  | _ => False

theorem idle_of_doIocpJob {worker : Fin workers} {self : SessionId}
    {context : OverlappedIOContext} {completion : Completion} {winsock : Winsock}
    (step : server.step (.doIocpJob worker self context completion winsock) = .ok after) :
    (server.worker worker).job = .idle := by
  simp only [Server.step, Server.doIocpJob] at step
  split at step
  · next enabled => exact enabled.1
  · cases step

theorem mRefCount_echoBack (self : SessionId) (queue : List SendRequest)
    (session : SessionState) : (session.echoBack self queue).2.mRefCount = session.mRefCount := by
  rcases echoBack_cases self queue session with echo | echo | ⟨_, _, echo⟩ <;> rw [echo]

theorem queued_of_same (same : ∀ worker, (after.worker worker).LSendRequestSessionList =
    (server.worker worker).LSendRequestSessionList) (client : ClientId) :
    after.Queued client ↔ server.Queued client := by
  simp only [Queued, same]

/-- A closed session is not queued by its `EchoBack`. -/
theorem queue_echoBack_closed {session : SessionState} (closed : session.mConnected = false)
    (self : SessionId) (queue : List SendRequest) :
    (session.echoBack self queue).1 = queue := by
  rcases echoBack_cases self queue session with echo | echo | ⟨connected, _, _⟩
  · rw [echo]
  · rw [echo]
  · rw [closed] at connected
    cases connected

/-- What a receive in one step has done before it ends. -/
theorem echoed_cases (reachable : (machine workers).Reachable server)
    {worker : Fin workers} {self : SessionId} {context : OverlappedIOContext}
    {completion : Completion} {winsock : Winsock} {received echoed : Server workers}
    (first : server.step (.doIocpJob worker self context completion winsock) = .ok received)
    (second : received.step (.echoBack worker) = .ok echoed) :
    ∃ (client : ClientId) (session : SessionState), self = .client client ∧
      Arrives context completion ∧ context ∈ (server.session (.client client)).inFlight ∧
      (server.worker worker).LSendRequestSessionList = [] ∧
      session.mRefCount = (server.session (.client client)).mRefCount ∧
      session.mConnected = (server.session (.client client)).mConnected ∧
      echoed = (server.leave ⟨.client client, (session.echoBack (.client client) []).2,
        server.manager⟩).setWorker worker
          ⟨(session.echoBack (.client client) []).1, .echoed (.client client) context⟩ := by
  have idle := idle_of_doIocpJob first
  have busy : (received.worker worker).job ≠ .idle := by
    intro nowIdle
    simp [Server.step, Server.echoBack, nowIdle] at second
  cases change_of_reachable reachable first with
  | handle _ _ _ _ _ _ => exact absurd idle busy
  | outgoing _ _ _ => exact absurd idle busy
  | @receive _ client _ _ _ _ flushed inFlight _ arrives =>
      refine ⟨client, ((server.session (.client client)).dequeue context completion).recvCompletion
        completion, rfl, arrives, inFlight, flushed, rfl, rfl, ?_⟩
      simp only [Server.step, Server.echoBack, worker_setWorker_self, session_setWorker,
        session_leave_self] at second
      cases second
      simp [leave, setWorker]

/-- A receive in one step overtakes like any other completion. -/
theorem overtaken_receive_iff (reachable : (machine workers).Reachable server)
    (fresh : ¬server.Overtaken) {worker : Fin workers} {self : SessionId}
    {context : OverlappedIOContext} {completion : Completion} {winsock : Winsock}
    {received echoed : Server workers}
    (first : server.step (.doIocpJob worker self context completion winsock) = .ok received)
    (second : received.step (.echoBack worker) = .ok echoed)
    (third : echoed.step (.finishRecv worker winsock) = .ok after) :
    after.Overtaken ↔
      server.Overtakes (.doIocpJob worker self context completion winsock) := by
  have reachedReceived := reachable.step first
  have echo : (machine workers).Step received (.echoBack worker) echoed := second
  have reachedEchoed := reachedReceived.step echo
  have safe := safe_of_reachable reachable
  have receive := change_of_reachable reachable first
  have finish := change_of_reachable reachedEchoed third
  rcases echoed_cases reachable first second with
    ⟨client, session, rfl, arrives, inFlight, flushed, sameCount, sameFlag, eq⟩
  have freshReceived : ¬received.Overtaken := by
    rw [overtaken_iff_dropsQueued safe fresh receive]
    rintro ⟨_, ⟨_, notArrives, _⟩, _⟩
    exact notArrives arrives
  have freshEchoed : ¬echoed.Overtaken := by
    rw [overtaken_iff_dropsQueued (safe_of_reachable reachedReceived) freshReceived
      (change_of_reachable reachedReceived echo)]
    rintro ⟨_, impossible, _⟩
    exact impossible
  have count : (echoed.session (.client client)).mRefCount =
      (server.session (.client client)).mRefCount := by
    rw [eq, session_setWorker, session_leave_self, mRefCount_echoBack, sameCount]
  have job : (echoed.worker worker).job = .echoed (.client client) context := by
    rw [eq, worker_setWorker_self]
  have queued (single : (server.session (.client client)).mRefCount = 1) :
      echoed.Queued client ↔ server.Queued client := by
    have contextMem := List.mem_append_left (server.session (.client client)).handled inFlight
    have closed := (closed_of_single (safe.settled client) contextMem single).1
    rw [← sameFlag] at closed
    apply queued_of_same
    intro other
    rw [eq, queue_echoBack_closed closed]
    by_cases same : other = worker
    · rw [same, worker_setWorker_self, flushed]
    · rw [worker_setWorker_of_ne same]
      rfl
  have notDisconnect : context.mIoType ≠ .ioDisconnect := by
    rw [arrives.1]
    decide
  rw [overtaken_iff_dropsQueued (safe_of_reachable reachedEchoed) freshEchoed finish]
  simp only [Overtakes, if_neg notDisconnect]
  constructor
  · rintro ⟨other, ⟨⟨_, stillWork⟩, single⟩, isQueued⟩
    rw [job] at stillWork
    cases stillWork
    rw [count] at single
    exact ⟨single, (queued single).mp isQueued⟩
  · rintro ⟨single, isQueued⟩
    refine ⟨client, ⟨⟨context, job⟩, ?_⟩, (queued single).mpr isQueued⟩
    rw [count, single]

/-- A whole job overtakes a request when it returns a queued session. -/
theorem overtaken_job_iff (reachable : (machine workers).Reachable server)
    (fresh : ¬server.Overtaken) {worker : Fin workers} {self : SessionId}
    {context : OverlappedIOContext} {completion : Completion} {winsock : Winsock}
    (step : server.step (.doIocpJob worker self context completion winsock) = .ok after)
    (ended : (after.worker worker).job = .idle) :
    after.Overtaken ↔
      server.Overtakes (.doIocpJob worker self context completion winsock) := by
  have change := change_of_reachable reachable step
  rw [overtaken_iff_dropsQueued (safe_of_reachable reachable) fresh change]
  cases change with
  | @handle _ client _ _ _ _ _ _ _ notArrives =>
      constructor
      · rintro ⟨_, ⟨same, _, single⟩, isQueued⟩
        cases same
        exact ⟨single, isQueued⟩
      · rintro ⟨single, isQueued⟩
        exact ⟨client, ⟨rfl, notArrives, single⟩, isQueued⟩
  | receive _ _ _ _ _ _ =>
      rw [worker_setWorker_self] at ended
      cases ended
  | @outgoing _ ran session acts _ _ =>
      have ofServer : self = .server ran := acts
      subst ofServer
      constructor
      · rintro ⟨_, ⟨impossible, _⟩, _⟩
        cases impossible
      · exact False.elim

/-- A call overtakes a queued session exactly if it drops its last reference. -/
theorem overtaken_iff_overtakes (reachable : (machine workers).Reachable server)
    (fresh : ¬server.Overtaken) (ran : server.call call = .ok after) :
    after.Overtaken ↔ server.Overtakes call := by
  have stays {before middle : Server workers} {action : Action workers}
      (reached : (machine workers).Reachable before) (freshBefore : ¬before.Overtaken)
      (step : before.step action = .ok middle) (keeps : ∀ client, ¬before.Drops client action) :
      ¬middle.Overtaken := by
    rw [overtaken_iff_dropsQueued (safe_of_reachable reached) freshBefore
      (change_of_reachable reached step)]
    rintro ⟨client, drops, _⟩
    exact keeps client drops
  cases call with
  | acceptClientSessions outcomes =>
      refine ⟨?_, False.elim⟩
      intro overtaken
      rcases Except.map_eq_ok.mp ran with ⟨⟨accepted, reached⟩, calls, same⟩
      simp only at same
      subst same
      have both : (machine workers).Reachable reached ∧ ¬reached.Overtaken := by
        apply acceptClientSessions_invariant _ ⟨reachable, fresh⟩ calls
        rintro before winsock middle ⟨reachedBefore, freshBefore⟩ iteration
        have step : (machine workers).Step before (.acceptClientSession winsock) middle := iteration
        exact ⟨reachedBefore.step step, stays reachedBefore freshBefore iteration (fun _ => id)⟩
      exact both.2 overtaken
  | connectRequest index winsock =>
      have step : server.step (.connectRequest index winsock) = .ok after := ran
      exact ⟨fun overtaken => stays reachable fresh step (fun _ => id) overtaken, False.elim⟩
  | doSendJob worker winsock =>
      have step : server.step (.doSendJob worker winsock) = .ok after := ran
      exact ⟨fun overtaken => stays reachable fresh step (fun _ => id) overtaken, False.elim⟩
  | doIocpJob worker self context completion winsock =>
      rcases wholeJob_cases ran with ⟨received, first, ⟨rfl, ended⟩ | ⟨echoed, second, third⟩⟩
      · exact overtaken_job_iff reachable fresh first ended
      · exact overtaken_receive_iff reachable fresh first second third

/-- No queued session of a run is ever recycled, and no flush acts on another
connection, exactly if no call overtakes a queued session. -/
theorem never_overtaken_iff {first last : Server workers}
    {steps : List (Server workers × Call workers)}
    (initial : (callMachine workers).Initial first)
    (run : (callMachine workers).Run first steps last) :
    (∀ state ∈ Machine.visited steps last, ¬state.Overtaken ∧ state.FlushesOwn) ↔
      ∀ step ∈ steps, ¬step.1.Overtakes step.2 := by
  have started : ¬first.Overtaken ∧ first.FlushesOwn := by
    rcases initial with ⟨raw, rfl⟩
    constructor
    · rintro ⟨_, _, requestMem, _⟩
      cases requestMem
    · intro _ _ requestMem
      cases requestMem
  have stepped (before : Server workers) (call : Call workers) (after : Server workers)
      (reachable : (callMachine workers).Reachable before)
      (good : ¬before.Overtaken ∧ before.FlushesOwn)
      (step : (callMachine workers).Step before call after) :
      (¬after.Overtaken ∧ after.FlushesOwn) ↔ ¬before.Overtakes call := by
    have overtaken_iff := overtaken_iff_overtakes (reachable_of_calls reachable) good.1 step
    have flushes := flushesOwn_of_fresh (reachable_of_calls (reachable.step step))
    constructor
    · rintro ⟨fresh, _⟩ overtakes
      exact fresh (overtaken_iff.mpr overtakes)
    · intro fine
      have fresh : ¬after.Overtaken := fun overtaken => fine (overtaken_iff.mp overtaken)
      exact ⟨fresh, flushes fresh⟩
  exact run.good_iff_fine initial started stepped

/-- `AcceptClientSessions` issues the whole pool if each `AcceptEx` succeeds. -/
theorem acceptClientSessions_all (reachable : (machine workers).Reachable server)
    {winsock : Winsock} (accepts : winsock.acceptEx = true) {free : List ClientId}
    (pool : server.manager.mFreeSessionList = free) :
    ∃ issued, server.acceptClientSessions (List.replicate free.length winsock) =
        .ok (true, issued) ∧
      issued.worker = server.worker ∧
      (∀ client ∈ free, issued.session (.client client) =
        (server.session (.client client)).issue winsock) ∧
      ∀ client, client ∉ free →
        issued.session (.client client) = server.session (.client client) := by
  have safe := safe_of_reachable reachable
  induction free generalizing server with
  | nil =>
      have closed := safe.guard_eq
      refine ⟨server, ?_, rfl, ?_, fun _ _ => rfl⟩
      · simp only [List.length_nil, List.replicate_zero, acceptClientSessions, closed, pool,
          Nat.sub_zero, Nat.lt_irrefl, if_false]
      · intro client clientMem
        cases clientMem
  | cons client rest ih =>
      have iteration := safe.acceptClientSession_eq pool winsock
      have step : (machine workers).Step server (.acceptClientSession winsock)
          (server.leave ⟨.client client, (server.session (.client client)).issue winsock,
            { server.manager with
              mFreeSessionList := rest
              mCurrentIssueCount := server.manager.mCurrentIssueCount + 1 }⟩) :=
        congrArg (Except.map Prod.snd) iteration
      have middle := reachable.step step
      rcases ih middle rfl (safe_of_reachable middle) with ⟨last, calls, sameWorker, all, others⟩
      have once : client ∉ rest := by
        have freeOnce := safe.freeOnce
        rw [pool] at freeOnce
        exact (List.nodup_cons.mp freeOnce).1
      refine ⟨last, ?_, sameWorker, ?_, ?_⟩
      · simp only [List.length_cons, List.replicate_succ, acceptClientSessions, iteration,
          Except.ok_bind, accepts, if_true]
        exact calls
      · intro other otherMem
        rcases List.mem_cons.mp otherMem with rfl | later
        · rw [others other once, session_leave_self]
        · rw [all other later, session_leave_of_ne]
          rintro same
          cases same
          exact once later
      · intro other notFree
        rw [others other (fun later => notFree (List.mem_cons_of_mem _ later)),
          session_leave_of_ne]
        rintro same
        cases same
        exact notFree List.mem_cons_self

/-- After the main thread has issued all sessions: the receive that queues one of
them also closes it, and the other worker completes the disconnect. -/
def recycling : List (Call 2) :=
  [.doIocpJob 0 (.client firstClient) (plainContext 0 .ioAccept) .empty .succeeding,
    .doIocpJob 0 (.client firstClient) (plainContext 1 .ioRecvZero) .empty .succeeding,
    .doIocpJob 0 (.client firstClient) (recvContext 2) ⟨true, 1, [7]⟩
      { Winsock.succeeding with wsaRecv := false },
    .doIocpJob 1 (.client firstClient) ⟨4, .ioDisconnect, ⟨0, none⟩, .drIoRequestError, []⟩
      .empty .succeeding]

/-- The first worker has queued the session that is next in the pool. -/
def queuesFree (server : Server 2) : Bool :=
  match (server.worker 0).LSendRequestSessionList with
  | ⟨.client client, _⟩ :: _ => client ∈ server.manager.mFreeSessionList.head?
  | _ => false

/-- A queued session in the pool is overtaken. -/
theorem overtaken_of_queuesFree {server : Server 2} (queues : queuesFree server = true) :
    server.Overtaken := by
  simp only [queuesFree] at queues
  split at queues
  · next client connection rest front =>
      refine ⟨0, ⟨.client client, connection⟩, ?_, client, rfl, Or.inl ?_⟩
      · rw [front]
        exact List.mem_cons_self
      · exact List.mem_of_mem_head? (of_decide_eq_true queues)
  · cases queues

theorem recycling_queuesFree (others : SessionId → SessionState) (manager : ClientSessionManager) :
    passes queuesFree (Machine.follow Server.call
      ⟨Function.update others (.client firstClient)
        (((Server.start 2 ⟨fun _ _ => 0, fun _ _ => 0⟩).session (.client firstClient)).issue
          .succeeding), manager, fun _ => ⟨[], .idle⟩⟩ recycling) = true := by
  rfl

theorem call_acceptClientSessions {outcomes : List Winsock} {accepted : Bool}
    (ran : server.acceptClientSessions outcomes = .ok (accepted, after)) :
    (callMachine workers).Step server (.acceptClientSessions outcomes) after :=
  congrArg (Except.map Prod.snd) ran

theorem exists_recycling : ∃ (server : Server 2) (steps : List (Server 2 × Call 2)),
    (callMachine 2).Run (.start 2 ⟨fun _ _ => 0, fun _ _ => 0⟩) steps server ∧
      (∀ step ∈ steps, step.1.Accepts step.2) ∧ queuesFree server = true := by
  have started : (machine 2).Reachable (.start 2 ⟨fun _ _ => 0, fun _ _ => 0⟩) :=
    .ofInitial ⟨_, rfl⟩
  have accepts : Winsock.succeeding.acceptEx = true := rfl
  rcases acceptClientSessions_all started accepts rfl with ⟨full, calls, workers, all, _⟩
  have inPool :
      firstClient ∈ (Server.start 2 ⟨fun _ _ => 0, fun _ _ => 0⟩).manager.mFreeSessionList :=
    (mem_prepareClientSessions _ _).mpr firstClient.isLt
  have same : full = ⟨Function.update full.session (.client firstClient)
      (((Server.start 2 ⟨fun _ _ => 0, fun _ _ => 0⟩).session (.client firstClient)).issue
        .succeeding), full.manager, fun _ => ⟨[], .idle⟩⟩ := by
    rw [← all firstClient inPool, Function.update_eq_self]
    rcases full with ⟨sessions, manager, worker⟩
    cases workers
    rfl
  have passed := recycling_queuesFree full.session full.manager
  rw [← same] at passed
  have stepped (before : Server 2) (call : Call 2) (after : Server 2)
      (step : before.call call = .ok after) : (callMachine 2).Step before call after := step
  rcases exists_run_of_follow stepped passed with ⟨server, steps, run, labels, queues⟩
  refine ⟨server, _, run.cons (call_acceptClientSessions calls),
    List.forall_mem_cons.mpr ⟨⟨full, calls⟩, ?_⟩, queues⟩
  intro step stepMem
  have label : step.2 ∈ recycling := labels ▸ List.mem_map_of_mem stepMem
  cases made : step.2 with
  | acceptClientSessions _ => simp [made, recycling] at label
  | _ => trivial

/-- The last call of that run overtakes the session. -/
theorem never_overtaken_iff_recycling : ∃ (server : Server 2)
    (steps : List (Server 2 × Call 2)), server.Overtaken ∧
      (∃ step ∈ steps, step.1.Overtakes step.2) ∧
      (callMachine 2).Run (.start 2 ⟨fun _ _ => 0, fun _ _ => 0⟩) steps server := by
  rcases exists_recycling with ⟨server, steps, run, _, queues⟩
  have overtaken := overtaken_of_queuesFree queues
  refine ⟨server, steps, overtaken, ?_, run⟩
  by_contra fine
  have never := (never_overtaken_iff ⟨_, rfl⟩ run).mpr (by simpa using fine)
  exact (never server (List.mem_append_right _ List.mem_cons_self)).1 overtaken

theorem not_never_overtaken : ¬∀ (workers : ℕ) (server : Server workers),
    (callMachine workers).Reachable server → ¬server.Overtaken := by
  intro never
  rcases exists_recycling with ⟨server, steps, run, _, queues⟩
  exact never 2 server ⟨_, steps, ⟨_, rfl⟩, run⟩ (overtaken_of_queuesFree queues)

end Server

end Gsp.Homework5
