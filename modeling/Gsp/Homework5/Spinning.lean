import Gsp.Homework5.Reached

/-!
# Workers that spin in `DoSendJob`

A worker spins when `FlushSend` refuses its front session. If all workers spin,
none of them takes the completion they wait for, and the server never moves
again. The last worker can only get there by finishing a receive.
-/

namespace Gsp.Homework5

namespace SessionState

variable {session : SessionState} {context : OverlappedIOContext}

/-- The pending count of a settled session is not negative. -/
theorem pending_nonneg (settled : session.Settled) : 0 ≤ session.mSendPendingCount := by
  have sending := settled.balanced.sending
  have flags := settled.balanced.flags
  have roles := settled.balanced.roles
  simp only [account] at sending flags roles
  omega

/-- A `FlushSend` that returns `false` has done nothing. -/
theorem flush_of_refused (settled : session.Settled) {winsock : Winsock}
    (refused : (session.flush winsock).1 = false) : (session.flush winsock).2 = session := by
  have nonneg := pending_nonneg settled
  revert refused
  simp only [flush]
  split
  · intro refused
    cases refused
  · split
    · intro _
      rfl
    · split
      · intro _
        rfl
      · next idle =>
          have none : session.mSendPendingCount = 0 := by omega
          split
          · intro refused
            simp [none] at refused
          · intro refused
            cases refused

/-- `FlushSend` does nothing while a send is pending. -/
theorem flush_of_pending (winsock : Winsock) (connected : session.mConnected = true)
    (pending : 0 < session.mSendPendingCount) : session.flush winsock = (false, session) := by
  have notNone : session.mSendPendingCount ≠ 0 := by omega
  simp [flush, connected, pending, notNone]

theorem pending_disconnect (dr : DisconnectReason) (winsock : Winsock) :
    (session.disconnect dr winsock).mSendPendingCount = session.mSendPendingCount := by
  simp only [disconnect, attempt]
  split
  · rfl
  · split <;> rfl

theorem pending_attempt (accepted : Bool) :
    (session.attempt accepted context).mSendPendingCount = session.mSendPendingCount := by
  simp only [attempt]
  split <;> rfl

theorem pending_finish (winsock : Winsock) :
    ((session.finish winsock).discard context).mSendPendingCount = session.mSendPendingCount := by
  have received : (session.preReceive winsock).2.mSendPendingCount = session.mSendPendingCount := by
    simp only [preReceive]
    split
    · rfl
    · exact pending_attempt _
  have finished : (session.finish winsock).mSendPendingCount = session.mSendPendingCount := by
    simp only [finish, close]
    split
    · exact received
    · rw [pending_disconnect, received]
  simp only [discard]
  split
  · exact finished
  · exact finished

theorem pending_issue (winsock : Winsock) :
    (session.issue winsock).mSendPendingCount = session.mSendPendingCount := by
  simp only [issue]
  split
  · rw [pending_attempt]
    rfl
  · simp only [record, pending_attempt]

theorem connected_issue (winsock : Winsock) :
    (session.issue winsock).mConnected = session.mConnected := by
  simp only [issue, attempt]
  split <;> rfl

/-- After a receive has been handled the session is connected if `PreRecv` worked. -/
theorem connected_finish (settled : session.Settled) (handled : context ∈ session.handled)
    (kind : context.mIoType = .ioRecv) (winsock : Winsock) :
    ((session.finish winsock).discard context).mConnected = true ↔
      session.mConnected = true ∧ winsock.wsaRecv = true := by
  have finished : (session.finish winsock).mConnected = true ↔
      session.mConnected = true ∧ winsock.wsaRecv = true := by
    cases connected : session.mConnected
    · simp [finish, preReceive, connected, close]
    · cases listens : winsock.wsaRecv
      · simp [finish, preReceive, connected, close, listens]
      · simp [finish, preReceive, connected, close, listens, attempt, post]
  rw [← finished]
  rcases finish_settled settled handled kind winsock with ⟨⟨balanced, _⟩, _⟩
  simp only [discard]
  split
  · next only =>
      rw [closed_of_last balanced only]
      simp [recycle, sessionReset]
  · exact Iff.rfl

end SessionState

namespace Server

open SessionState

variable {workers : ℕ} {server after : Server workers} {action : Action workers}

/-- Inside the loop of `DoSendJob`, with a front session that `FlushSend` refuses. -/
def Spinning (server : Server workers) (worker : Fin workers) : Prop :=
  (server.worker worker).job = .idle ∧
    ∃ request rest, (server.worker worker).LSendRequestSessionList = request :: rest ∧
      (server.session request.session).mConnected = true ∧
      0 < (server.session request.session).mSendPendingCount

/-- Every worker spins. -/
def Deadlocked (server : Server workers) : Prop :=
  ∀ worker, server.Spinning worker

/-- The last worker that does not spin finishes a receive with its session queued,
connected and still sending. -/
def Closes (server : Server workers) : Action workers → Prop
  | .finishRecv worker winsock =>
      winsock.wsaRecv = true ∧
        (∃ self context request rest, (server.worker worker).job = .echoed self context ∧
          (server.worker worker).LSendRequestSessionList = request :: rest ∧
          (server.session self).mConnected = true ∧
          0 < (server.session self).mSendPendingCount) ∧
        ∀ other, other ≠ worker → server.Spinning other
  | _ => False

/-- A spinning worker goes on spinning, and the server stays as it is. -/
theorem doSendJob_of_spinning (safe : server.Safe) {worker : Fin workers}
    (spinning : server.Spinning worker) (winsock : Winsock) :
    server.doSendJob worker winsock = .ok server := by
  rcases spinning with ⟨idle, request, rest, front, connected, pending⟩
  rcases request with ⟨self, connection⟩
  rcases safe.queued worker ⟨self, connection⟩ (by rw [front]; exact List.mem_cons_self) with
    ⟨client, ofClient⟩
  simp only at ofClient
  subst ofClient
  have same : (⟨⟨.client client, connection⟩ :: rest, .idle⟩ : Worker) = server.worker worker := by
    rw [← idle, ← front]
  rw [safe.doSendJob_eq idle front, flush_of_pending winsock connected pending]
  simp only [Bool.false_eq_true, if_false, same, leave, setWorker, Function.update_eq_self]

/-- A deadlocked server has no step but the idle turns of its workers and what the
main thread does. -/
theorem step_of_deadlocked (safe : server.Safe) (deadlocked : server.Deadlocked)
    (step : server.step action = .ok after) :
    after = server ∨ (∃ winsock, action = .acceptClientSession winsock) ∨
      ∃ index winsock, action = .connectRequest index winsock := by
  have idle (worker : Fin workers) : (server.worker worker).job = .idle := (deadlocked worker).1
  cases action with
  | acceptClientSession winsock => exact Or.inr (Or.inl ⟨winsock, rfl⟩)
  | connectRequest index winsock => exact Or.inr (Or.inr ⟨index, winsock, rfl⟩)
  | doIocpJob worker self context completion winsock =>
      rcases deadlocked worker with ⟨_, request, rest, front, _⟩
      simp [Server.step, Server.doIocpJob, front] at step
  | echoBack worker => simp [Server.step, Server.echoBack, idle] at step
  | finishRecv worker winsock => simp [Server.step, Server.finishRecv, idle] at step
  | doSendJob worker winsock =>
      simp only [Server.step, doSendJob_of_spinning safe (deadlocked worker)] at step
      cases step
      exact Or.inl rfl

/-- Nothing that spinning depends on has changed. -/
theorem spinning_of_same {worker : Fin workers} (spinning : after.Spinning worker)
    (sameWorker : after.worker worker = server.worker worker)
    (same : ∀ client, (after.session (.client client)).mConnected = true →
      (server.session (.client client)).mConnected = true)
    (samePending : ∀ client, (after.session (.client client)).mSendPendingCount =
      (server.session (.client client)).mSendPendingCount)
    (queued : ∀ request ∈ (server.worker worker).LSendRequestSessionList,
      ∃ client, request.session = .client client) : server.Spinning worker := by
  rcases spinning with ⟨idle, request, rest, front, connected, pending⟩
  rw [sameWorker] at idle front
  rcases queued request (by rw [front]; exact List.mem_cons_self) with ⟨client, ofClient⟩
  rw [ofClient] at connected pending
  refine ⟨idle, request, rest, front, ?_, ?_⟩
  · rw [ofClient]
    exact same client connected
  · rw [ofClient, ← samePending]
    exact pending

/-- The main thread does not end a deadlock either. -/
theorem deadlocked_of_step (safe : server.Safe) (deadlocked : server.Deadlocked)
    (step : server.step action = .ok after) : after.Deadlocked := by
  have change := safe.change_of_step step
  rcases step_of_deadlocked safe deadlocked step with rfl | ⟨winsock, rfl⟩ | ⟨index, winsock, rfl⟩
  · exact deadlocked
  · cases change with
    | @issue client rest _ taken =>
        intro worker
        apply spinning_of_same (deadlocked worker)
        · rfl
        · intro other
          apply forall_leave fun self session =>
            (server.session self).mConnected = true → session.mConnected = true
          · rw [connected_issue]
            exact id
          · intro _ _
            exact id
        · intro other
          apply forall_leave fun self session =>
            (server.session self).mSendPendingCount = session.mSendPendingCount
          · exact (pending_issue winsock).symm
          · intro _ _
            rfl
        · exact safe.queued worker
    | outgoing acts _ _ => exact acts.elim
  · cases change with
    | @outgoing _ ran session acts _ _ =>
        have same (client : ClientId) : (server.leave ⟨.server ran, session,
            server.manager⟩).session (.client client) = server.session (.client client) :=
          session_leave_of_ne (by simp) ..
        intro worker
        apply spinning_of_same (deadlocked worker)
        · rfl
        · intro client
          rw [same]
          exact id
        · intro client
          rw [same]
        · exact safe.queued worker

/-- From a deadlock no run gets any worker out of its loop. -/
theorem deadlocked_of_run (reachable : (machine workers).Reachable server)
    (deadlocked : server.Deadlocked) {steps : List (Server workers × Action workers)}
    (run : (machine workers).Run server steps after) : after.Deadlocked := by
  apply And.right
  apply run.keeps reachable deadlocked
  intro before action after reached stuck step
  exact deadlocked_of_step (safe_of_reachable reached) stuck step

/-- A worker with a job does not spin. -/
theorem not_spinning_of_job {worker : Fin workers} (busy : (server.worker worker).job ≠ .idle) :
    ¬server.Spinning worker := fun spinning => busy spinning.1

/-- A worker with no request does not spin. -/
theorem not_spinning_of_empty {worker : Fin workers}
    (empty : (server.worker worker).LSendRequestSessionList = []) :
    ¬server.Spinning worker := by
  rintro ⟨_, request, rest, front, _⟩
  rw [empty] at front
  cases front

section Finish

variable {worker : Fin workers} {client : ClientId} {context : OverlappedIOContext}

theorem pending_leave_finish (winsock : Winsock) (manager : ClientSessionManager)
    (self : SessionId) : ((server.leave ⟨.client client,
      ((server.session (.client client)).finish winsock).discard context,
      manager⟩).session self).mSendPendingCount = (server.session self).mSendPendingCount := by
  apply forall_leave fun self session =>
    session.mSendPendingCount = (server.session self).mSendPendingCount
  · exact pending_finish winsock
  · intro _ _
    rfl

theorem connected_leave_finish (safe : server.Safe)
    (atWork : (server.worker worker).job = .echoed (.client client) context) (winsock : Winsock)
    (manager : ClientSessionManager) (self : SessionId) :
    (((server.leave ⟨.client client,
      ((server.session (.client client)).finish winsock).discard context,
      manager⟩).session self).mConnected = true →
        (server.session self).mConnected = true ∧
          (self = .client client → winsock.wsaRecv = true)) ∧
    (winsock.wsaRecv = true → (server.session self).mConnected = true →
      ((server.leave ⟨.client client,
        ((server.session (.client client)).finish winsock).discard context,
        manager⟩).session self).mConnected = true) := by
  rcases safe.working worker _ _ (working_of_job atWork rfl) with ⟨kind, handled, _⟩
  have connected_iff := connected_finish (safe.settled client) handled kind winsock
  apply forall_leave fun self session =>
    (session.mConnected = true → (server.session self).mConnected = true ∧
      (self = .client client → winsock.wsaRecv = true)) ∧
    (winsock.wsaRecv = true → (server.session self).mConnected = true → session.mConnected = true)
  · refine ⟨?_, fun listens connected => connected_iff.mpr ⟨connected, listens⟩⟩
    intro connected
    rcases connected_iff.mp connected with ⟨wasConnected, listens⟩
    exact ⟨wasConnected, fun _ => listens⟩
  · intro other ne
    exact ⟨fun connected => ⟨connected, fun same => absurd same ne⟩, fun _ connected => connected⟩

/-- The end of a receive that deadlocks the server is a closing one. -/
theorem closes_of_deadlocked (safe : server.Safe)
    (atWork : (server.worker worker).job = .echoed (.client client) context) (winsock : Winsock)
    (manager : ClientSessionManager)
    (deadlocked : ((server.leave ⟨.client client,
      ((server.session (.client client)).finish winsock).discard context, manager⟩).setWorker worker
        ⟨(server.worker worker).LSendRequestSessionList, .idle⟩).Deadlocked) :
    server.Closes (.finishRecv worker winsock) := by
  have connected_of (self : SessionId) :=
    (connected_leave_finish safe atWork winsock manager self).1
  rcases deadlocked worker with ⟨_, request, rest, front, connected, pending⟩
  simp only [worker_setWorker_self] at front
  have ofClient : request.session = .client client :=
    safe.own worker _ _ atWork request (by rw [front]; exact List.mem_cons_self)
  rw [session_setWorker] at connected pending
  rw [pending_leave_finish] at pending
  rcases connected_of _ connected with ⟨wasConnected, listens⟩
  rw [ofClient] at wasConnected pending
  refine ⟨listens ofClient, ⟨_, context, request, rest, atWork, front, wasConnected, pending⟩, ?_⟩
  intro other ne
  apply spinning_of_same (deadlocked other)
  · exact worker_setWorker_of_ne ne _
  · intro otherClient stillConnected
    exact (connected_of _ stillConnected).1
  · intro otherClient
    exact pending_leave_finish winsock manager _
  · exact safe.queued other

/-- A closing end of a receive deadlocks the server. -/
theorem deadlocked_of_closes (safe : server.Safe)
    (atWork : (server.worker worker).job = .echoed (.client client) context) {winsock : Winsock}
    (manager : ClientSessionManager) (closes : server.Closes (.finishRecv worker winsock)) :
    ((server.leave ⟨.client client,
      ((server.session (.client client)).finish winsock).discard context, manager⟩).setWorker worker
        ⟨(server.worker worker).LSendRequestSessionList, .idle⟩).Deadlocked := by
  rcases closes with ⟨listens, ⟨self, otherContext, request, rest, stillWork, front, connected,
    pending⟩, others⟩
  rw [atWork] at stillWork
  cases stillWork
  have still (self : SessionId) :=
    (connected_leave_finish safe atWork winsock manager self).2 listens
  have ofClient : request.session = .client client :=
    safe.own worker _ _ atWork request (by rw [front]; exact List.mem_cons_self)
  intro other
  by_cases same : other = worker
  · subst same
    refine ⟨by rw [worker_setWorker_self], request, rest,
      by rw [worker_setWorker_self]; exact front, ?_, ?_⟩
    · rw [session_setWorker, ofClient]
      exact still _ connected
    · rw [session_setWorker, pending_leave_finish, ofClient]
      exact pending
  · rcases others other same with ⟨idle, otherRequest, otherRest, otherFront, otherConnected,
      otherPending⟩
    refine ⟨by rw [worker_setWorker_of_ne same]; exact idle, otherRequest, otherRest,
      by rw [worker_setWorker_of_ne same]; exact otherFront, ?_, ?_⟩
    · exact still _ otherConnected
    · rw [session_setWorker, pending_leave_finish]
      exact otherPending

end Finish

/-- Issuing a session deadlocks nothing. -/
theorem deadlocked_of_issue (safe : server.Safe) {client : ClientId} (winsock : Winsock)
    (manager : ClientSessionManager)
    (deadlocked : (server.leave ⟨.client client, (server.session (.client client)).issue winsock,
      manager⟩).Deadlocked) : server.Deadlocked := by
  intro worker
  apply spinning_of_same (deadlocked worker)
  · rfl
  · intro other
    apply forall_leave fun self session =>
      session.mConnected = true → (server.session self).mConnected = true
    · rw [connected_issue]
      exact id
    · intro _ _
      exact id
  · intro other
    apply forall_leave fun self session =>
      session.mSendPendingCount = (server.session self).mSendPendingCount
    · exact pending_issue winsock
    · intro _ _
      rfl
  · exact safe.queued worker

/-- A send deadlocks nothing. -/
theorem deadlocked_of_flush (safe : server.Safe) {worker : Fin workers} {client : ClientId}
    {connection : ℕ} {rest : List SendRequest} (winsock : Winsock)
    (idle : (server.worker worker).job = .idle)
    (front : (server.worker worker).LSendRequestSessionList = ⟨.client client, connection⟩ :: rest)
    (deadlocked : ((server.leave ⟨.client client,
      ((server.session (.client client)).flush winsock).2, server.manager⟩).setWorker worker
        ⟨if ((server.session (.client client)).flush winsock).1 then rest
          else ⟨.client client, connection⟩ :: rest, .idle⟩).Deadlocked) :
    server.Deadlocked := by
  cases flushed : ((server.session (.client client)).flush winsock).1
  · have same : (⟨⟨.client client, connection⟩ :: rest, .idle⟩ : Worker) =
        server.worker worker := by
      rw [← idle, ← front]
    simpa only [flush_of_refused (safe.settled client) flushed, flushed, Bool.false_eq_true,
      if_false, same, leave, setWorker, Function.update_eq_self] using deadlocked
  · have short := safe.short worker
    rw [front, List.length_cons] at short
    have empty : rest = [] := List.length_eq_zero_iff.mp (by omega)
    apply absurd (deadlocked worker)
    apply not_spinning_of_empty
    rw [worker_setWorker_self]
    simp only [flushed, if_true, empty]

/-- A step deadlocks the server exactly if it closes it. -/
theorem deadlocked_iff_closes (safe : server.Safe) (free : ¬server.Deadlocked)
    (change : Change server action after) : after.Deadlocked ↔ server.Closes action := by
  cases change with
  | finish winsock atWork =>
      exact ⟨closes_of_deadlocked safe atWork winsock _, deadlocked_of_closes safe atWork _⟩
  | issue winsock taken =>
      refine ⟨?_, False.elim⟩
      intro deadlocked
      exact absurd (deadlocked_of_issue safe winsock _ deadlocked) free
  | @outgoing action ran session acts outgoing opened =>
      constructor
      · intro deadlocked
        apply absurd _ free
        intro worker
        have same (client : ClientId) : (server.leave ⟨.server ran, session,
            server.manager⟩).session (.client client) = server.session (.client client) :=
          session_leave_of_ne (by simp) ..
        apply spinning_of_same (deadlocked worker)
        · rfl
        · intro client
          rw [same]
          exact id
        · intro client
          rw [same]
        · exact safe.queued worker
      · cases action <;> first | exact False.elim | exact acts.elim
  | @handle worker client context completion winsock idle flushed _ _ _ =>
      refine ⟨?_, False.elim⟩
      intro deadlocked
      exact absurd (deadlocked worker) (not_spinning_of_empty flushed)
  | @receive worker client context completion winsock idle flushed _ _ _ =>
      refine ⟨?_, False.elim⟩
      intro deadlocked
      apply absurd (deadlocked worker)
      apply not_spinning_of_job
      rw [worker_setWorker_self]
      simp
  | @echo worker client context atWork =>
      refine ⟨?_, False.elim⟩
      intro deadlocked
      apply absurd (deadlocked worker)
      apply not_spinning_of_job
      rw [worker_setWorker_self]
      simp
  | flush winsock idle front =>
      refine ⟨?_, False.elim⟩
      intro deadlocked
      exact absurd (deadlocked_of_flush safe winsock idle front deadlocked) free

/-- A run of a server with workers never deadlocks exactly if no step closes it. -/
theorem never_deadlocked_iff {first last : Server workers}
    {steps : List (Server workers × Action workers)} (some : 0 < workers)
    (initial : (machine workers).Initial first) (run : (machine workers).Run first steps last) :
    (∀ state ∈ Machine.visited steps last, ¬state.Deadlocked) ↔
      ∀ step ∈ steps, ¬step.1.Closes step.2 := by
  have started : ¬first.Deadlocked := by
    rcases initial with ⟨raw, rfl⟩
    intro deadlocked
    rcases deadlocked ⟨0, some⟩ with ⟨_, request, rest, front, _⟩
    cases front
  have stepped (before : Server workers) (action : Action workers) (after : Server workers)
      (reachable : (machine workers).Reachable before) (free : ¬before.Deadlocked)
      (step : (machine workers).Step before action after) :
      ¬after.Deadlocked ↔ ¬before.Closes action :=
    not_congr (deadlocked_iff_closes (safe_of_reachable reachable) free
      (change_of_reachable reachable step))
  exact run.good_iff_fine initial started stepped

/-- A second byte overtakes the send of the first. -/
def overtaking : List (Action 1) :=
  accepting 0 ++ receiving 0 1 2 7 ++ [.finishRecv 0 .succeeding, .doSendJob 0 .succeeding] ++
    receiving 0 3 5 8 ++ [.finishRecv 0 .succeeding]

/-- The only worker is idle and its queue does not get shorter. -/
def spins (server : Server 1) : Bool :=
  (server.worker 0).job = .idle &&
    match (server.worker 0).LSendRequestSessionList with
    | request :: _ => (server.session request.session).mConnected &&
        (0 < (server.session request.session).mSendPendingCount : Bool)
    | [] => false

/-- Workers that all spin are deadlocked. -/
theorem deadlocked_of_spins {server : Server 1} (spinning : spins server = true) :
    server.Deadlocked := by
  intro worker
  rw [Fin.fin_one_eq_zero worker]
  simp only [spins, Bool.and_eq_true, decide_eq_true_eq] at spinning
  rcases spinning with ⟨idle, front⟩
  split at front
  · next request rest list =>
      rw [Bool.and_eq_true, decide_eq_true_eq] at front
      exact ⟨idle, request, rest, list, front.1, front.2⟩
  · cases front

theorem overtaking_spins :
    passes spins ((Server.start 1 ⟨fun _ _ => 0, fun _ _ => 0⟩).runs overtaking) = true := by
  decide +kernel

/-- The last step of that run closes the server. -/
theorem never_deadlocked_iff_overtaking : ∃ (server : Server 1)
    (steps : List (Server 1 × Action 1)), steps.map Prod.snd = overtaking ∧
      server.Deadlocked ∧ ∃ step ∈ steps, step.1.Closes step.2 := by
  rcases exists_run_of_passes overtaking_spins with ⟨server, steps, run, labels, spinning⟩
  have deadlocked := deadlocked_of_spins spinning
  refine ⟨server, steps, labels, deadlocked, ?_⟩
  by_contra fine
  have never := (never_deadlocked_iff Nat.one_pos ⟨_, rfl⟩ run).mpr (by simpa using fine)
  exact never server (List.mem_append_right _ List.mem_cons_self) deadlocked

theorem not_never_deadlocked : ¬∀ workers, 0 < workers → ∀ server : Server workers,
    (machine workers).Reachable server → ¬server.Deadlocked := by
  intro never
  rcases exists_of_passes overtaking_spins with ⟨server, reachable, spinning⟩
  exact never 1 Nat.one_pos server reachable (deadlocked_of_spins spinning)

end Server

end Gsp.Homework5
