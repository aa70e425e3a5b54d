import Gsp.Homework5.Safe

/-!
# The sessions with other servers

No law of reference counts is needed for these sessions: whatever step on one of
them ends without a failed assertion leaves the pool and the workers as they are
and the session waiting for its connection, or connected with nothing in flight.
-/

namespace Gsp.Homework5

namespace SessionState

variable {session before after : SessionState} {context : OverlappedIOContext}

/-- A session with another server only waits for its connection. -/
theorem Outgoing.change (outgoing : before.Outgoing)
    (connecting : ∀ context ∈ after.live, context ∈ before.live ∨ context.mIoType = .ioConnect)
    (sameRecv : after.mRecvBuffer = before.mRecvBuffer)
    (sameSend : after.mSendBuffer = before.mSendBuffer)
    (sameReceived : received after.trace = received before.trace)
    (sameSent : sent after.trace = sent before.trace) : after.Outgoing := by
  refine ⟨?_, by rw [sameRecv, outgoing.recvBuffer], by rw [sameSend, outgoing.sendBuffer],
    by rw [sameReceived, outgoing.unreceived], by rw [sameSent, outgoing.unsent]⟩
  intro context contextMem
  rcases connecting context contextMem with old | kind
  · exact outgoing.connecting context old
  · exact kind

theorem outgoing_dequeue (outgoing : session.Outgoing) (inFlight : context ∈ session.inFlight)
    (completion : Completion) : (session.dequeue context completion).Outgoing := by
  have kind := outgoing.connecting context (List.mem_append_left _ inFlight)
  refine outgoing.change ?_ ?_ rfl rfl rfl
  · intro other otherMem
    exact Or.inl ((perm_dequeue inFlight completion).subset otherMem)
  · simp only [dequeue, kind]

end SessionState

namespace SessionScope

open SessionState

variable {self : SessionId} {index : ℕ} {session : SessionState} {manager : ClientSessionManager}
  {context : OverlappedIOContext} {scope : SessionScope}

/-- Only the count changes. -/
theorem addRef_ok (counted : addRef ⟨self, session, manager⟩ = .ok scope) :
    ∃ mRefCount, scope = ⟨self, { session with mRefCount := mRefCount }, manager⟩ := by
  simp only [addRef] at counted
  split at counted
  · cases counted
    exact ⟨_, rfl⟩
  · cases counted

theorem newContext_ok {mIoType : IOType} {mWsaBuf : WsaBuf} {dr : DisconnectReason}
    {posted : List UInt8}
    (made : newContext mIoType mWsaBuf dr posted ⟨self, session, manager⟩ = .ok (context, scope)) :
    context = session.fresh mIoType mWsaBuf dr posted ∧ ∃ mRefCount, scope = ⟨self,
      { session with
        mRefCount := mRefCount
        handled := context :: session.handled
        trace := .contextCreated context.address mIoType :: session.trace }, manager⟩ := by
  simp only [newContext, Except.bind_eq_ok] at made
  rcases made with ⟨referenced, counted, made⟩
  rcases addRef_ok counted with ⟨mRefCount, rfl⟩
  cases made
  exact ⟨rfl, mRefCount, rfl⟩

/-- A connected session and one with another server are not returned to the pool. -/
theorem releaseRef_ok (stays : session.mConnected = true ∨ ∃ index, self = .server index)
    (released : releaseRef ⟨self, session, manager⟩ = .ok scope) :
    ∃ mRefCount, scope = ⟨self, { session with mRefCount := mRefCount }, manager⟩ := by
  simp only [releaseRef, update_mk] at released
  split at released
  · cases released
  · split at released
    · cases self with
      | client client =>
          rcases stays with connected | ⟨index, impossible⟩
          · simp [onRelease, returnClientSession, connected] at released
          · cases impossible
      | server index =>
          cases released
          exact ⟨_, rfl⟩
    · cases released
      exact ⟨_, rfl⟩

theorem deleteIoContext_ok (stays : session.mConnected = true ∨ ∃ index, self = .server index)
    (removed : deleteIoContext context ⟨self, session, manager⟩ = .ok scope) :
    ∃ mRefCount, scope = ⟨self,
      { session with
        mRefCount := mRefCount
        handled := session.handled.erase context
        trace := .contextDeleted context.address :: session.trace }, manager⟩ := by
  simp only [deleteIoContext, Except.bind_eq_ok] at removed
  rcases removed with ⟨referenced, released, removed⟩
  rcases releaseRef_ok stays released with ⟨mRefCount, rfl⟩
  split at removed
  · cases removed
  · cases removed
    exact ⟨mRefCount, rfl⟩

/-- `PreRecv` does not change the flag. -/
theorem mConnected_preRecv {winsock : Winsock} {started : Bool}
    (result : preRecv winsock ⟨.server index, session, manager⟩ = .ok (started, scope)) :
    scope.session.mConnected = session.mConnected := by
  simp only [preRecv] at result
  split at result
  · cases result
    rfl
  · rcases Except.bind_eq_ok.mp result with ⟨⟨recvContext, made⟩, creation, rest⟩
    rcases (newContext_ok creation).2 with ⟨mRefCount, rfl⟩
    split at rest
    · cases rest
      rfl
    · rcases Except.bind_eq_ok.mp rest with ⟨removed, removal, rest⟩
      rcases deleteIoContext_ok (Or.inr ⟨index, rfl⟩) removal with ⟨mRefCount, rfl⟩
      cases rest
      rfl

/-- A session with another server connects or stays as it is, and receives nothing. -/
theorem connectCompletion_ok {winsock : Winsock}
    (completed : connectCompletion winsock ⟨.server index, session, manager⟩ = .ok scope) :
    scope = ⟨.server index, session, manager⟩ ∨
    (winsock.updateConnectContext = true ∧ scope = ⟨.server index,
      { session with mConnected := true, trace := .connectCompleted :: session.trace },
      manager⟩) := by
  simp only [connectCompletion] at completed
  split at completed
  · left
    cases completed
    rfl
  · next updated =>
      right
      refine ⟨by simpa using updated, ?_⟩
      split at completed
      · cases completed
      · split at completed
        · cases completed
        · rcases Except.bind_eq_ok.mp completed with ⟨⟨started, received⟩, result, rest⟩
          have flag := mConnected_preRecv result
          split at rest
          · cases rest
          · next closed =>
              have wasClosed : session.mConnected = false := by
                rw [← flag]
                simpa using closed
              simp only [preRecv, wasClosed, if_true] at result
              cases result
              cases rest
              rfl

theorem connectRequest_ok {winsock : Winsock} {requested : Bool} (outgoing : session.Outgoing)
    (result : connectRequest winsock ⟨.server index, session, manager⟩ = .ok (requested, scope)) :
    scope.self = .server index ∧ scope.manager = manager ∧ scope.session.Outgoing ∧
      scope.session.mConnected = session.mConnected := by
  simp only [connectRequest] at result
  split at result
  · cases result
  · split at result
    · cases result
      exact ⟨rfl, rfl, outgoing, rfl⟩
    · split at result
      · cases result
        exact ⟨rfl, rfl, outgoing, rfl⟩
      · rcases Except.bind_eq_ok.mp result with ⟨⟨context, made⟩, creation, rest⟩
        rcases newContext_ok creation with ⟨rfl, mRefCount, rfl⟩
        split at rest
        · cases rest
          refine ⟨rfl, rfl, outgoing.change ?_ rfl rfl rfl rfl, rfl⟩
          intro other otherMem
          simp only [SessionScope.update, submit, live, List.erase_cons_head, List.append_assoc,
            List.mem_append, List.mem_singleton] at otherMem ⊢
          rcases otherMem with old | rfl | old
          · exact Or.inl (Or.inl old)
          · exact Or.inr rfl
          · exact Or.inl (Or.inr old)
        · rcases Except.bind_eq_ok.mp rest with ⟨removed, removal, rest⟩
          rcases deleteIoContext_ok (Or.inr ⟨index, rfl⟩) removal with ⟨mRefCount, rfl⟩
          cases rest
          refine ⟨rfl, rfl, outgoing.change ?_ rfl rfl rfl rfl, rfl⟩
          intro other otherMem
          simp only [live, List.erase_cons_head] at otherMem
          exact Or.inl otherMem

/-- `DoIocpJob` on a context of such a session. -/
theorem doIocpJob_ok {completion : Completion} {winsock : Winsock} {job : Job}
    (outgoing : session.Outgoing) (kind : context.mIoType = .ioConnect)
    (result : doIocpJob context completion winsock ⟨.server index, session, manager⟩ =
      .ok (job, scope)) :
    job = .idle ∧ scope.self = .server index ∧ scope.manager = manager ∧
      scope.session.Outgoing ∧
      (scope.session.mConnected = true →
        session.mConnected = true ∨ winsock.updateConnectContext = true) := by
  simp only [doIocpJob, kind, reduceCtorEq, or_self, and_false, if_false] at result
  rcases Except.bind_eq_ok.mp result with ⟨connected, completed, rest⟩
  rcases Except.bind_eq_ok.mp rest with ⟨removed, removal, rest⟩
  cases rest
  simp only [closeJob, if_true] at removal
  have smaller (other : OverlappedIOContext)
      (otherMem : other ∈ session.inFlight ++ session.handled.erase context) :
      other ∈ session.live := by
    rcases List.mem_append.mp otherMem with old | old
    · exact List.mem_append_left _ old
    · exact List.mem_append_right _ (List.mem_of_mem_erase old)
  rcases connectCompletion_ok completed with rfl | ⟨updated, rfl⟩
  · rcases deleteIoContext_ok (Or.inr ⟨index, rfl⟩) removal with ⟨mRefCount, rfl⟩
    refine ⟨rfl, rfl, rfl, outgoing.change ?_ rfl rfl rfl rfl, Or.inl⟩
    intro other otherMem
    exact Or.inl (smaller other otherMem)
  · rcases deleteIoContext_ok (Or.inr ⟨index, rfl⟩) removal with ⟨mRefCount, rfl⟩
    refine ⟨rfl, rfl, rfl, outgoing.change ?_ rfl rfl rfl rfl, fun _ => Or.inr updated⟩
    intro other otherMem
    exact Or.inl (smaller other otherMem)

end SessionScope

end Gsp.Homework5
