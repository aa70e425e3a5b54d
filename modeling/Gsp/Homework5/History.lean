import Gsp.Homework5.Echo

/-!
# The history of a client session

Two laws that every turn keeps: a context that was created is deleted once or still
there, and a session is returned at most once for each time it was issued.
-/

namespace Gsp.Homework5

namespace SessionState

open CircularBuffer

variable {session before after : SessionState} {context : OverlappedIOContext}

/-! ## Staying on the connection -/

namespace Steady

theorem attempt (accepted : Bool) (context : OverlappedIOContext) (session : SessionState) :
    Steady session (session.attempt accepted context) := by
  cases accepted
  · exact (Quiet.abandon context session).steady
  · exact cons (.contextCreated context.address context.mIoType) trivial rfl

theorem postReceive (winsock : Winsock) (session : SessionState) :
    Steady session (session.postReceive winsock).2 := by
  simp only [SessionState.postReceive]
  split
  · exact of_trace rfl
  · split
    · exact of_trace rfl
    · exact attempt _ _ session.query

/-- A handler stays on the connection. -/
theorem handle (context : OverlappedIOContext) (completion : Completion) (winsock : Winsock)
    (session : SessionState) : Steady session (session.handle context completion winsock) := by
  simp only [SessionState.handle]
  split
  · split
    · have failed : Steady session (session.record .sendFailed) :=
        cons .sendFailed trivial rfl
      exact failed.trans (Quiet.disconnect ..).steady
    · exact (Quiet.disconnect ..).steady
  · split
    · exact (Quiet.disconnected session).steady
    · exact (Quiet.accepted winsock session).steady
    · exact (postReceive winsock session).trans (Quiet.close ..).steady
    · have completed : Steady session
          (session.sendCompletion context completion.dwTransferred) :=
        cons (.sendCompleted _) trivial rfl
      exact completed.trans (Quiet.close winsock (_, _)).steady
    · exact of_trace rfl

theorem finish (winsock : Winsock) (session : SessionState) :
    Steady session (session.finish winsock) :=
  ((Quiet.preReceive winsock session).trans (Quiet.close winsock _)).steady

theorem echoBack (self : SessionId) (queue : List SendRequest) (session : SessionState) :
    Steady session (session.echoBack self queue).2 := by
  rcases echoBack_cases self queue session with echo | echo | ⟨_, _, echo⟩ <;> rw [echo] <;>
    exact of_trace rfl

theorem flush (winsock : Winsock) (session : SessionState) :
    Steady session (session.flush winsock).2 := by
  rcases flush_cases winsock session with same | ⟨context, rfl, _, _, _, posted | refused⟩
  · rw [same]
    exact of_trace rfl
  · rw [posted]
    exact cons (.contextCreated _ .ioSend) trivial rfl
  · rw [refused]
    exact (Quiet.abandon ..).steady.trans (Quiet.disconnect ..).steady

/-- A steady session is not returned. -/
theorem returnsMade_eq (steady : Steady before after) :
    returnsMade after.trace = returnsMade before.trace := by
  rcases steady with ⟨events, trace, steadyEvents⟩
  rw [trace]
  apply read_append returnsMade _ steadyEvents
  intro event _ steadyEvent
  cases event <;> first | exact steadyEvent.elim | rfl

end Steady

/-! ## Every context is deleted once -/

/-- Each context is created once, under an address of its own, and deleted at most once. -/
structure Tracked (session : SessionState) : Prop where
  below : ∀ address ∈ created session.trace, address < (created session.trace).length
  once : (created session.trace).Nodup
  whereabouts : (created session.trace).Perm
    (deleted session.trace ++ session.live.map OverlappedIOContext.address)

namespace Tracked

/-- Only the history and the live contexts matter. -/
theorem same (tracked : before.Tracked) (sameCreated : created after.trace = created before.trace)
    (sameDeleted : deleted after.trace = deleted before.trace)
    (sameLive : after.live.Perm before.live) : after.Tracked := by
  rcases tracked with ⟨below, once, whereabouts⟩
  refine ⟨by rwa [sameCreated], by rwa [sameCreated], ?_⟩
  rw [sameCreated, sameDeleted]
  exact whereabouts.trans ((sameLive.map _).symm.append_left _)

/-- A new context, at the next address. -/
theorem create (tracked : before.Tracked) {address : ℕ}
    (fresh : address = (created before.trace).length)
    (nowCreated : created after.trace = address :: created before.trace)
    (where_ : (address :: (deleted before.trace ++
      before.live.map OverlappedIOContext.address)).Perm
        (deleted after.trace ++ after.live.map OverlappedIOContext.address)) : after.Tracked := by
  rcases tracked with ⟨below, once, whereabouts⟩
  constructor
  · intro other otherMem
    rw [nowCreated] at otherMem ⊢
    rcases List.mem_cons.mp otherMem with rfl | otherMem
    · simp only [List.length_cons]
      omega
    · have lower := below other otherMem
      simp only [List.length_cons]
      omega
  · rw [nowCreated]
    refine List.nodup_cons.mpr ⟨?_, once⟩
    intro addressMem
    have lower := below address addressMem
    omega
  · rw [nowCreated]
    exact (whereabouts.cons address).trans where_

/-- A new context has an address of its own. -/
theorem attempt (tracked : session.Tracked) (accepted : Bool) (context : OverlappedIOContext)
    (fresh : context.address = (created session.trace).length) :
    (session.attempt accepted context).Tracked := by
  cases accepted
  · exact create tracked fresh rfl (List.Perm.refl _)
  · apply create tracked fresh rfl
    have perm : (session.post context).live.Perm (context :: session.live) := perm_post context
    have moved := perm.map OverlappedIOContext.address
    exact List.perm_middle.symm.trans (moved.symm.append_left _)

theorem disconnect (tracked : session.Tracked) (dr : DisconnectReason) (winsock : Winsock) :
    (session.disconnect dr winsock).Tracked := by
  simp only [SessionState.disconnect]
  split
  · exact tracked
  · have closed : Tracked { session with mConnected := false } :=
      tracked.same rfl rfl (List.Perm.refl _)
    have attempted := closed.attempt winsock.disconnectEx (SessionState.fresh .ioDisconnect
      ⟨0, none⟩ dr [] { session with mConnected := false }) rfl
    split
    · exact attempted
    · exact attempted.same rfl rfl (List.Perm.refl _)

theorem preReceive (tracked : session.Tracked) (winsock : Winsock) :
    (session.preReceive winsock).2.Tracked := by
  simp only [SessionState.preReceive]
  split
  · exact tracked
  · exact tracked.attempt _ _ rfl

theorem postReceive (tracked : session.Tracked) (winsock : Winsock) :
    (session.postReceive winsock).2.Tracked := by
  have queried : session.query.Tracked := tracked.same rfl rfl (List.Perm.refl _)
  simp only [SessionState.postReceive]
  split
  · exact tracked
  · split
    · exact queried
    · exact queried.attempt _ _ rfl

theorem close (winsock : Winsock) {result : Bool × SessionState} (tracked : result.2.Tracked) :
    (SessionState.close winsock result).Tracked := by
  simp only [SessionState.close]
  split
  · exact tracked
  · exact tracked.disconnect ..

theorem accepted (tracked : session.Tracked) (winsock : Winsock) :
    (session.accepted winsock).Tracked := by
  have connected : Tracked { session with mConnected := true } :=
    tracked.same rfl rfl (List.Perm.refl _)
  simp only [SessionState.accepted]
  split
  · have attached : Tracked { session with mConnected := true, attached := true } :=
      connected.same rfl rfl (List.Perm.refl _)
    split
    · exact attached.preReceive winsock
    · exact (attached.preReceive winsock).same rfl rfl (List.Perm.refl _)
  · exact connected.disconnect ..

theorem handle (tracked : session.Tracked) (context : OverlappedIOContext)
    (completion : Completion) (winsock : Winsock) :
    (session.handle context completion winsock).Tracked := by
  simp only [SessionState.handle]
  split
  · split
    · have failed : (session.record .sendFailed).Tracked := tracked.same rfl rfl (List.Perm.refl _)
      exact failed.disconnect ..
    · exact tracked.disconnect ..
  · split
    · exact tracked.same rfl rfl (List.Perm.refl _)
    · exact tracked.accepted winsock
    · exact close winsock (tracked.postReceive winsock)
    · apply close winsock
      exact tracked.same rfl rfl (List.Perm.refl _)
    · exact tracked

theorem flush (tracked : session.Tracked) (winsock : Winsock) :
    (session.flush winsock).2.Tracked := by
  rcases flush_cases winsock session with same | ⟨context, isFresh, _, _, _, posted | refused⟩
  · rwa [same]
  · have attempted := tracked.attempt true context (congrArg OverlappedIOContext.address isFresh)
    rw [posted]
    exact attempted.same rfl rfl (List.Perm.refl _)
  · have abandoned := tracked.attempt false context (congrArg OverlappedIOContext.address isFresh)
    rw [refused]
    exact abandoned.disconnect ..

theorem issue (tracked : session.Tracked) (winsock : Winsock) :
    (session.issue winsock).Tracked := by
  have taken : Tracked { session.record .issued with mRefCount := session.mRefCount + 1 } :=
    tracked.same rfl rfl (List.Perm.refl _)
  have attempted := taken.attempt winsock.acceptEx
    (SessionState.fresh .ioAccept ⟨0, none⟩ .drNone []
      { session.record .issued with mRefCount := session.mRefCount + 1 }) rfl
  simp only [SessionState.issue]
  split
  · exact attempted
  · exact attempted.same rfl rfl (List.Perm.refl _)

/-- A handled context is deleted for the first time. -/
theorem discard (tracked : session.Tracked) (handled : context ∈ session.handled) :
    (session.discard context).Tracked := by
  rcases tracked with ⟨below, once, whereabouts⟩
  have sameCreated : created (session.discard context).trace = created session.trace := by
    simp only [SessionState.discard]
    split <;> rfl
  have nowDeleted : deleted (session.discard context).trace =
      context.address :: deleted session.trace := by
    simp only [SessionState.discard]
    split <;> rfl
  have rest : (session.discard context).live =
      session.inFlight ++ session.handled.erase context := by
    simp only [SessionState.discard]
    split <;> rfl
  have perm : session.live.Perm (context :: (session.discard context).live) := by
    rw [rest]
    exact ((List.perm_cons_erase handled).append_left _).trans List.perm_middle
  refine ⟨by rwa [sameCreated], by rwa [sameCreated], ?_⟩
  rw [sameCreated, nowDeleted]
  have moved := perm.map OverlappedIOContext.address
  exact (whereabouts.trans (moved.append_left _)).trans List.perm_middle

end Tracked

/-- Every turn keeps track of the contexts. -/
theorem tracked_turn (tracked : session.Tracked) (kept : session.Kept)
    (turn : Turn session after) : after.Tracked := by
  cases turn with
  | issue winsock _ => exact tracked.issue winsock
  | @handle context completion winsock inFlight reports notArrives =>
      have dequeued : (session.dequeue context completion).Tracked :=
        tracked.same rfl rfl (perm_dequeue inFlight completion)
      apply (dequeued.handle context completion winsock).discard
      exact (handle_settled (settled_dequeue kept.settled inFlight completion)
        List.mem_cons_self winsock (notReceived_of_notArrives notArrives)).2
  | @receive context completion inFlight _ _ =>
      exact tracked.same rfl rfl (perm_dequeue inFlight completion)
  | echo self queue _ _ =>
      rcases echoBack_cases self queue session with echo | echo | ⟨_, _, echo⟩ <;> rw [echo] <;>
        exact tracked.same rfl rfl (List.Perm.refl _)
  | finish winsock handled kind =>
      apply (Tracked.close winsock (tracked.preReceive winsock)).discard
      exact (finish_settled kept.settled handled kind winsock).2
  | flush winsock => exact tracked.flush winsock

/-! ## Every session is returned once -/

/-- A session is returned at most once before it is issued again. -/
structure Returns (session : SessionState) : Prop where
  once : returnsMade session.trace ≤ 1
  unreturned : issued session.trace = true → returnsMade session.trace = 0

theorem Returns.steady (returns : before.Returns) (steady : Steady before after) :
    after.Returns := by
  rcases returns with ⟨once, unreturned⟩
  constructor
  · rwa [steady.returnsMade_eq]
  · rwa [steady.issued_eq, steady.returnsMade_eq]

/-- An issued session may be returned again. -/
theorem Returns.issue (winsock : Winsock) : (session.issue winsock).Returns := by
  apply Returns.steady _ (Quiet.issue winsock session).steady
  constructor
  · exact Nat.zero_le 1
  · intro _
    rfl

/-- An issued session is returned for the first time. -/
theorem Returns.discard (returns : session.Returns) (isIssued : issued session.trace = true) :
    (session.discard context).Returns := by
  simp only [SessionState.discard]
  split
  · apply Returns.steady _ (Quiet.recycle context session).steady
    constructor
    · have before := returns.unreturned isIssued
      simp only [record, sessionReset, returnsMade]
      omega
    · intro stillIssued
      cases stillIssued
  · exact returns.steady (Quiet.drop context session).steady

/-- No turn returns a session twice. -/
theorem returns_turn (returns : session.Returns) (kept : session.Kept)
    (turn : Turn session after) : after.Returns := by
  cases turn with
  | issue winsock _ => exact Returns.issue winsock
  | @handle context completion winsock inFlight _ _ =>
      have dequeued : Steady session (session.dequeue context completion) := Steady.of_trace rfl
      have steady := dequeued.trans (Steady.handle context completion winsock _)
      apply (returns.steady steady).discard
      rw [steady.issued_eq]
      exact issued_of_live kept.settled (List.mem_append_left _ inFlight)
  | @receive context completion _ _ _ =>
      exact returns.steady (Steady.cons (.received completion.data) trivial rfl)
  | echo self queue _ _ => exact returns.steady (Steady.echoBack self queue session)
  | @finish context winsock handled _ =>
      have quiet := (Quiet.preReceive winsock session).trans (Quiet.close winsock _)
      apply (returns.steady quiet.steady).discard
      rw [quiet.steady.issued_eq]
      exact issued_of_live kept.settled (List.mem_append_right _ handled)
  | flush winsock => exact returns.steady (Steady.flush winsock session)

end SessionState

end Gsp.Homework5
