import Gsp.Homework5.Reached

/-!
# Stranded sessions

A session is stranded when nothing can happen to it any more: no worker handles a
context of it, and the completion port will report none of those in flight. In a
run in which no `AcceptEx` and no `DisconnectEx` fails, every accepted session is
set up, attached to the port and listening, and no connection to another server is
completed, no session is ever stranded.
-/

namespace Gsp.Homework5

namespace SessionState

variable {session after : SessionState} {context : OverlappedIOContext}

/-! ## What leads to the loss of a session -/

theorem lost_attempt (accepted : Bool) :
    lost (session.attempt accepted context).trace = lost session.trace := by
  simp only [attempt]
  split <;> rfl

theorem lost_disconnect {winsock : Winsock} (requested : winsock.disconnectEx = true)
    (dr : DisconnectReason) :
    lost (session.disconnect dr winsock).trace = lost session.trace := by
  simp only [disconnect, requested, if_true]
  split
  · rfl
  · exact lost_attempt true

theorem lost_preReceive (winsock : Winsock) :
    lost (session.preReceive winsock).2.trace = lost session.trace := by
  simp only [preReceive]
  split
  · rfl
  · exact lost_attempt _

theorem lost_postReceive (winsock : Winsock) :
    lost (session.postReceive winsock).2.trace = lost session.trace := by
  simp only [postReceive]
  split
  · rfl
  · split
    · rfl
    · rw [lost_attempt]
      rfl

/-- Closing with a disconnect loses nothing. -/
theorem lost_close {winsock : Winsock} (requested : winsock.disconnectEx = true)
    (result : Bool × SessionState) : lost (close winsock result).trace = lost result.2.trace := by
  simp only [close]
  split
  · rfl
  · exact lost_disconnect requested _

theorem lost_accepted {winsock : Winsock} (requested : winsock.disconnectEx = true)
    (listens : acceptOk winsock = true → winsock.wsaRecv = true) :
    lost (session.accepted winsock).trace = lost session.trace := by
  simp only [accepted]
  split
  · next setUp =>
      rw [if_pos (listens setUp), lost_preReceive]
  · rw [lost_disconnect requested]

/-- A handler whose calls succeed loses nothing. -/
theorem lost_handle {winsock : Winsock} (requested : winsock.disconnectEx = true)
    (listens : context.mIoType = .ioAccept → acceptOk winsock = true → winsock.wsaRecv = true)
    (completion : Completion) :
    lost (session.handle context completion winsock).trace = lost session.trace := by
  simp only [handle]
  split
  · rw [lost_disconnect requested]
    split <;> rfl
  · split
    · rfl
    · next kind => exact lost_accepted requested (listens kind)
    · rw [lost_close requested, lost_postReceive]
    · rw [lost_close requested]
      rfl
    · rfl

theorem lost_finish {winsock : Winsock} (requested : winsock.disconnectEx = true) :
    lost (session.finish winsock).trace = lost session.trace := by
  rw [finish, lost_close requested, lost_preReceive]

theorem lost_discard : lost (session.discard context).trace = lost session.trace := by
  simp only [discard]
  split <;> rfl

theorem lost_echoBack (self : SessionId) (queue : List SendRequest) :
    lost (session.echoBack self queue).2.trace = lost session.trace := by
  rcases echoBack_cases self queue session with echo | echo | ⟨_, _, echo⟩ <;> rw [echo]

theorem lost_flush {winsock : Winsock} (requested : winsock.disconnectEx = true) :
    lost (session.flush winsock).2.trace = lost session.trace := by
  rcases flush_cases winsock session with same | ⟨context, _, _, _, _, posted | refused⟩
  · rw [same]
  · rw [posted]
    rfl
  · rw [refused, lost_disconnect requested]
    rfl

/-- A session whose accept is in flight is not lost. -/
theorem lost_issue {winsock : Winsock} (accepts : winsock.acceptEx = true) :
    lost (session.issue winsock).trace = false := by
  simp only [issue, accepts, if_true]
  rw [lost_attempt]
  rfl

/-! ## Attached sockets -/

/-- As long as the socket is not attached to the completion port, the session is not
connected and only an `AcceptEx` can be in flight. -/
def Wired (session : SessionState) : Prop :=
  session.attached = true ∨
    (session.mConnected = false ∧ ∀ context ∈ session.inFlight, context.mIoType = .ioAccept)

/-- What keeps the socket keeps a session wired. -/
theorem Wired.same (wired : session.Wired) (attached : after.attached = session.attached)
    (closed : session.mConnected = false →
      after.mConnected = false ∧ ∀ context ∈ after.inFlight, context ∈ session.inFlight) :
    after.Wired := by
  rcases wired with wired | ⟨unconnected, accepts⟩
  · exact Or.inl (attached.trans wired)
  · rcases closed unconnected with ⟨still, fewer⟩
    exact Or.inr ⟨still, fun context contextMem => accepts context (fewer context contextMem)⟩

theorem attached_attempt (accepted : Bool) :
    (session.attempt accepted context).attached = session.attached := by
  cases accepted <;> rfl

theorem wired_dequeue (wired : session.Wired) (completion : Completion) :
    (session.dequeue context completion).Wired :=
  wired.same rfl fun closed => ⟨closed, fun _ contextMem => List.mem_of_mem_erase contextMem⟩

theorem wired_disconnect (wired : session.Wired) (dr : DisconnectReason) (winsock : Winsock) :
    (session.disconnect dr winsock).Wired := by
  by_cases closed : session.mConnected = false
  · simpa only [disconnect, closed, if_true] using wired
  · apply wired.same
    · simp only [disconnect, closed, Bool.true_eq_false, if_false]
      cases winsock.disconnectEx <;> rfl
    · exact fun unconnected => absurd unconnected closed

theorem wired_preReceive (wired : session.Wired) (winsock : Winsock) :
    (session.preReceive winsock).2.Wired := by
  by_cases closed : session.mConnected = false
  · simpa only [preReceive, closed, if_true] using wired
  · apply wired.same
    · simp only [preReceive, closed, Bool.true_eq_false, if_false]
      exact attached_attempt _
    · exact fun unconnected => absurd unconnected closed

theorem wired_postReceive (wired : session.Wired) (winsock : Winsock) :
    (session.postReceive winsock).2.Wired := by
  by_cases closed : session.mConnected = false
  · simpa only [postReceive, closed, if_true] using wired
  · apply wired.same
    · simp only [postReceive, closed, Bool.true_eq_false, if_false]
      split
      · rfl
      · exact attached_attempt _
    · exact fun unconnected => absurd unconnected closed

theorem wired_close {result : Bool × SessionState} (wired : result.2.Wired) (winsock : Winsock) :
    (close winsock result).Wired := by
  simp only [close]
  split
  · exact wired
  · exact wired_disconnect wired _ winsock

/-- An accepted connection whose socket has been set up is attached. -/
theorem wired_accepted {winsock : Winsock} (setUp : acceptOk winsock = true) :
    (session.accepted winsock).Wired := by
  have wired : Wired { session with mConnected := true, attached := true } := Or.inl rfl
  simp only [accepted, setUp, if_true]
  split
  · exact wired_preReceive wired winsock
  · exact wired_preReceive wired winsock

/-- A handler that sets its socket up keeps the session wired. -/
theorem wired_handle (wired : session.Wired) {winsock : Winsock}
    (setUp : context.mIoType = .ioAccept → acceptOk winsock = true) (completion : Completion) :
    (session.handle context completion winsock).Wired := by
  simp only [handle]
  split
  · apply wired_disconnect
    split <;> exact wired
  · split
    · exact wired
    · next kind => exact wired_accepted (setUp kind)
    · exact wired_close (wired_postReceive wired winsock) winsock
    · apply wired_close
      exact wired
    · exact wired

theorem wired_finish (wired : session.Wired) (winsock : Winsock) :
    (session.finish winsock).Wired :=
  wired_close (wired_preReceive wired winsock) winsock

/-- The socket of a returned session is a new one. -/
theorem wired_discard (wired : session.Wired)
    (balanced : (session.account (some context.mIoType)).Balanced)
    (handled : context ∈ session.handled) : (session.discard context).Wired := by
  simp only [discard]
  split
  · next only =>
      have unused := inFlight_of_last balanced handled only
      refine Or.inr ⟨rfl, ?_⟩
      intro other otherMem
      have none : other ∈ session.inFlight := otherMem
      rw [unused] at none
      cases none
  · exact wired

theorem wired_echoBack (wired : session.Wired) (self : SessionId) (queue : List SendRequest) :
    (session.echoBack self queue).2.Wired := by
  rcases echoBack_cases self queue session with echo | echo | ⟨_, _, echo⟩ <;> rw [echo] <;>
    exact wired

theorem wired_flush (wired : session.Wired) (winsock : Winsock) :
    (session.flush winsock).2.Wired := by
  rcases flush_cases winsock session with same | ⟨context, _, connected, _, _, posted | refused⟩
  · rwa [same]
  · rw [posted]
    exact wired.same rfl fun closed => absurd (connected.symm.trans closed) (by decide)
  · have abandoned : (session.abandon context).Wired := wired
    rw [refused]
    exact wired_disconnect abandoned _ winsock

theorem wired_issue (wired : session.Wired) (winsock : Winsock) :
    (session.issue winsock).Wired := by
  rcases wired with attached | ⟨closed, accepts⟩
  · left
    simp only [issue]
    split
    · exact (attached_attempt _).trans attached
    · exact (attached_attempt _).trans attached
  · right
    simp only [issue]
    cases winsock.acceptEx
    · exact ⟨closed, accepts⟩
    · refine ⟨closed, ?_⟩
      intro other otherMem
      rcases List.mem_append.mp otherMem with old | new
      · exact accepts other old
      · rw [List.mem_singleton.mp new]
        rfl

/-- On a wired session everything in flight can complete. -/
theorem completable_of_wired (wired : session.Wired) : session.completable = session.inFlight := by
  apply List.filter_eq_self.mpr
  intro context contextMem
  rcases wired with attached | ⟨_, accepts⟩
  · rw [attached, Bool.true_or]
  · simp [accepts context contextMem]

/-! ## Sessions in use -/

/-- A session that is out of the pool and not lost has a context. -/
theorem live_of_issued (settled : session.Settled) (isIssued : issued session.trace = true)
    (unlost : lost session.trace = false) : session.live ≠ [] := by
  intro nothing
  rcases settled with ⟨balanced, listening⟩
  have tokens (kind : IOType) : session.role none kind = 0 := by
    simp [role, SessionState.tokens, nothing]
  have references := references_eq balanced
  have alive := balanced.alive isIssued
  have reserved := balanced.reserved unlost
  have listens := listening unlost
  simp only [account, tokens] at alive reserved listens
  rw [nothing] at references
  simp only [List.length_nil] at references
  have connected : 0 < (session.mConnected.toNat : ℤ) := by omega
  have receiver := listens connected
  omega

end SessionState

/-- Every Winsock call that a step must not lose succeeds. -/
def Action.Succeeding {workers : ℕ} : Action workers → Prop
  | .acceptClientSession winsock => winsock.acceptEx = true
  | .connectRequest _ _ => True
  | .doIocpJob _ _ context _ winsock =>
      winsock.disconnectEx = true ∧
        (context.mIoType = .ioAccept →
          SessionState.acceptOk winsock = true ∧ winsock.wsaRecv = true) ∧
        (context.mIoType = .ioConnect → winsock.updateConnectContext = false)
  | .echoBack _ => True
  | .finishRecv _ winsock => winsock.disconnectEx = true
  | .doSendJob _ winsock => winsock.disconnectEx = true

instance {workers : ℕ} : (action : Action workers) → Decidable action.Succeeding
  | .acceptClientSession winsock => inferInstanceAs (Decidable (winsock.acceptEx = true))
  | .connectRequest _ _ => inferInstanceAs (Decidable True)
  | .doIocpJob _ _ _ _ _ => inferInstanceAs (Decidable (_ ∧ _))
  | .echoBack _ => inferInstanceAs (Decidable True)
  | .finishRecv _ winsock => inferInstanceAs (Decidable (winsock.disconnectEx = true))
  | .doSendJob _ winsock => inferInstanceAs (Decidable (winsock.disconnectEx = true))

namespace Server

open SessionState

variable {workers : ℕ} {server after : Server workers} {action : Action workers}

/-- No context of the session is being handled, and none in flight will be. -/
def Silent (server : Server workers) (self : SessionId) : Prop :=
  (server.session self).handled = [] ∧ (server.session self).completable = []

instance (server : Server workers) (self : SessionId) : Decidable (server.Silent self) :=
  inferInstanceAs (Decidable (_ ∧ _))

/-- Out of the pool or connected, and silent. -/
def Stranded (server : Server workers) (self : SessionId) : Prop :=
  (match self with
    | .client client => client ∉ server.manager.mFreeSessionList
    | .server index => (server.session (.server index)).mConnected = true) ∧
  server.Silent self

/-- Nothing has been lost. -/
structure Unlost (server : Server workers) : Prop where
  clients : ∀ client, lost (server.session (.client client)).trace = false
  wired : ∀ client, (server.session (.client client)).Wired
  servers : ∀ index, (server.session (.server index)).mConnected = false

/-- A safe server that lost nothing strands no session. -/
theorem not_stranded (safe : server.Safe) (unlost : server.Unlost) (self : SessionId) :
    ¬server.Stranded self := by
  cases self with
  | client client =>
      rintro ⟨notFree, handled, completable⟩
      simp only at notFree
      rw [safe.free, Bool.not_eq_false] at notFree
      apply live_of_issued (safe.settled client) notFree (unlost.clients client)
      rw [live, handled, ← completable_of_wired (unlost.wired client), completable,
        List.append_nil]
  | server index =>
      rintro ⟨connected, _⟩
      simp only at connected
      rw [unlost.servers index] at connected
      cases connected

/-- A change that loses no session leaves the server so. -/
theorem unlost_leave (unlost : server.Unlost) {client : ClientId} {session : SessionState}
    (manager : ClientSessionManager) (kept : lost session.trace = false)
    (wired : session.Wired) :
    (server.leave ⟨.client client, session, manager⟩).Unlost where
  clients other := by
    by_cases same : other = client
    · subst same
      rwa [session_leave_self]
    · rw [session_leave_of_ne (by simpa using same)]
      exact unlost.clients other
  wired other := by
    by_cases same : other = client
    · subst same
      rwa [session_leave_self]
    · rw [session_leave_of_ne (by simpa using same)]
      exact unlost.wired other
  servers index := by
    rw [session_leave_of_ne (by simp)]
    exact unlost.servers index

theorem unlost_setWorker (unlost : server.Unlost) (index : Fin workers) (worker : Worker) :
    (server.setWorker index worker).Unlost :=
  ⟨unlost.clients, unlost.wired, unlost.servers⟩

/-- A step whose calls succeed loses nothing. -/
theorem unlost_of_change (safe : server.Safe) (unlost : server.Unlost)
    (change : Change server action after) (succeeding : action.Succeeding) : after.Unlost := by
  cases change with
  | @issue client _ winsock _ =>
      exact unlost_leave unlost _ (lost_issue succeeding) (wired_issue (unlost.wired client) _)
  | @outgoing action ran session acts outgoing opened =>
      constructor
      · intro client
        rw [session_leave_of_ne (by simp)]
        exact unlost.clients client
      · intro client
        rw [session_leave_of_ne (by simp)]
        exact unlost.wired client
      · intro index
        by_cases same : index = ran
        · subst same
          rw [session_leave_self]
          by_contra connected
          rcases opened (by simpa using connected) with
            already | ⟨worker, context, completion, winsock, rfl, kind, updated⟩
          · rw [unlost.servers] at already
            cases already
          · rw [succeeding.2.2 kind] at updated
            cases updated
        · rw [session_leave_of_ne (by simpa using same)]
          exact unlost.servers index
  | @handle worker client context completion winsock _ _ inFlight _ notArrives =>
      rcases handle_settled (settled_dequeue (safe.settled client) inFlight completion)
        List.mem_cons_self winsock (notReceived_of_notArrives notArrives) with
        ⟨⟨balanced, _⟩, handled⟩
      apply unlost_leave unlost
      · rw [lost_discard, complete,
          lost_handle succeeding.1 fun kind _ => (succeeding.2.1 kind).2]
        exact unlost.clients client
      · apply wired_discard _ balanced handled
        exact wired_handle (wired_dequeue (unlost.wired client) completion)
          (fun kind => (succeeding.2.1 kind).1) completion
  | @receive worker client _ completion winsock _ _ _ _ _ =>
      apply unlost_setWorker
      apply unlost_leave unlost
      · exact unlost.clients client
      · exact wired_dequeue (unlost.wired client) completion
  | @echo worker client context _ =>
      apply unlost_setWorker
      apply unlost_leave unlost
      · rw [lost_echoBack]
        exact unlost.clients client
      · exact wired_echoBack (unlost.wired client) ..
  | @finish worker client context winsock atWork =>
      rcases safe.working _ _ _ (working_of_job atWork rfl) with ⟨kind, handled, _⟩
      rcases finish_settled (safe.settled client) handled kind winsock with
        ⟨⟨balanced, _⟩, stillHandled⟩
      apply unlost_setWorker
      apply unlost_leave unlost
      · rw [lost_discard, lost_finish succeeding]
        exact unlost.clients client
      · exact wired_discard (wired_finish (unlost.wired client) winsock) balanced stillHandled
  | @flush worker client connection rest winsock _ _ =>
      apply unlost_setWorker
      apply unlost_leave unlost
      · rw [lost_flush succeeding]
        exact unlost.clients client
      · exact wired_flush (unlost.wired client) winsock

end Server

end Gsp.Homework5
