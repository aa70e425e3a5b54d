import Gsp.Homework5.Account

/-!
# The life of a client session

Between two steps a client session is `Settled`: its account is balanced and,
unless something is lost, a connected session is listening. Every handler takes a
settled session to a settled one; while it runs, the session is held, so that no
assertion fails.
-/

namespace Gsp.Homework5

namespace SessionState

variable {session : SessionState}

/-- The law between two steps. -/
structure Settled (session : SessionState) : Prop where
  balanced : (session.account none).Balanced
  listening : (session.account none).Listening

/-- A context that is handled holds its session. -/
theorem held_of_balanced {kind : IOType} (balanced : (session.account (some kind)).Balanced) :
    session.Held := by
  have positive := balanced.positive (by simp [account])
  have bounds := balanced.bounds (by simp [account])
  simp only [account] at positive bounds
  exact ⟨positive, by omega⟩

/-- The last context finds its session disconnected. -/
theorem closed_of_last {kind : IOType} (balanced : (session.account (some kind)).Balanced)
    (only : session.mRefCount = 1) : session.mConnected = false := by
  have closed := balanced.last (by simp [account]) only
  simpa [account] using closed

theorem connected_account (spent : Option IOType) (connected : session.mConnected = true) :
    (session.account spent).connected = 1 := by
  simp [account, connected]

/-- A closed session does not have to listen. -/
theorem listening_of_closed (spent : Option IOType) (closed : session.mConnected = false) :
    (session.account spent).Listening := by
  intro _ connected
  simp [account, closed] at connected

theorem account_record_lost (spent : Option IOType) {event : Event}
    (losing : event = .disconnectExFailed ∨ event = .acceptPreRecvFailed ∨
      event = .acceptExFailed) :
    (session.record event).account spent = { session.account spent with lost := true } := by
  rcases losing with rfl | rfl | rfl <;> rfl

/-- Disconnecting keeps the balance. -/
theorem balanced_disconnect {spent : Option IOType} (balanced : (session.account spent).Balanced)
    (dr : DisconnectReason) (winsock : Winsock) :
    ((session.disconnect dr winsock).account spent).Balanced := by
  cases connected : session.mConnected
  · simpa only [disconnect, connected, if_true] using balanced
  · have flag := connected_account spent connected
    simp only [disconnect, connected, Bool.true_eq_false, if_false, attempt]
    cases winsock.disconnectEx
    · simp only [Bool.false_eq_true, if_false, account_record_lost spent (Or.inl rfl),
        account_abandon]
      exact balanced.disconnectRefused flag
    · simp only [if_true, account_post]
      exact balanced.disconnectPosted flag

@[simp]
theorem mConnected_disconnect (dr : DisconnectReason) (winsock : Winsock) :
    (session.disconnect dr winsock).mConnected = false := by
  simp only [disconnect, attempt]
  split
  · assumption
  · split <;> simp_all [post, abandon, record]

/-- A handler that ends with `DisconnectRequest`. -/
theorem closing_disconnect {spent : Option IOType} (balanced : (session.account spent).Balanced)
    (dr : DisconnectReason) (winsock : Winsock) :
    ((session.disconnect dr winsock).account spent).Balanced ∧
      ((session.disconnect dr winsock).account spent).Listening :=
  ⟨balanced_disconnect balanced dr winsock, listening_of_closed spent (mConnected_disconnect ..)⟩

/-- A handler that goes on listening through a new context. -/
theorem posting_receiver {spent : Option IOType} (balanced : (session.account spent).Balanced)
    (connected : session.mConnected = true) {context : OverlappedIOContext}
    (receiver : context.mIoType = .ioRecvZero ∨ context.mIoType = .ioRecv)
    (unused : (session.account spent).accept + (session.account spent).recvZero +
      (session.account spent).recv = 0) :
    ((session.post context).account spent).Balanced ∧
      ((session.post context).account spent).Listening := by
  rw [account_post]
  have flag := connected_account spent connected
  refine ⟨balanced.postReceiver flag receiver unused, ?_⟩
  intro _ _
  have roles := balanced.roles
  rcases receiver with receiver | receiver <;> simp only [receiver, Account.post] <;> omega

/-- A live context has its role. -/
theorem role_pos {context : OverlappedIOContext} (contextMem : context ∈ session.live) :
    0 < session.role none context.mIoType := by
  have positive : 0 < tally OverlappedIOContext.mIoType session.live context.mIoType :=
    Tally.tally_pos contextMem
  simp only [role, tokens, reduceCtorEq, if_false]
  omega

/-- Client sessions have no contexts of the other two kinds. -/
theorem known_of_mem (balanced : (session.account none).Balanced) {context : OverlappedIOContext}
    (contextMem : context ∈ session.live) :
    context.mIoType ≠ .ioNone ∧ context.mIoType ≠ .ioConnect := by
  have positive := role_pos contextMem
  have none_left : session.role none .ioNone + session.role none .ioConnect = 0 :=
    balanced.roles.2.2.2.2.2.1
  have nonneg (kind : IOType) : 0 ≤ session.role none kind := by
    simp only [role, reduceCtorEq, if_false]
    omega
  have leftNone := nonneg .ioNone
  have leftConnect := nonneg .ioConnect
  refine ⟨?_, ?_⟩ <;> intro kind <;> rw [kind] at positive <;> omega

@[simp]
theorem handled_disconnect (dr : DisconnectReason) (winsock : Winsock) :
    (session.disconnect dr winsock).handled = session.handled := by
  simp only [disconnect, attempt]
  split
  · rfl
  · split <;> rfl

@[simp]
theorem handled_preReceive (winsock : Winsock) :
    (session.preReceive winsock).2.handled = session.handled := by
  simp only [preReceive, attempt]
  split
  · rfl
  · split <;> rfl

@[simp]
theorem handled_postReceive (winsock : Winsock) :
    (session.postReceive winsock).2.handled = session.handled := by
  simp only [postReceive, attempt]
  split
  · rfl
  · split
    · rfl
    · split <;> rfl

@[simp]
theorem handled_close (winsock : Winsock) (result : Bool × SessionState) :
    (close winsock result).handled = result.2.handled := by
  simp only [close]
  split
  · rfl
  · exact handled_disconnect ..

@[simp]
theorem handled_accepted (winsock : Winsock) :
    (session.accepted winsock).handled = session.handled := by
  simp only [accepted]
  split
  · split
    · exact handled_preReceive ..
    · exact handled_preReceive ..
  · exact handled_disconnect ..

theorem closing_preReceive {spent : Option IOType} (balanced : (session.account spent).Balanced)
    (unused : (session.account spent).accept + (session.account spent).recvZero +
      (session.account spent).recv = 0) (winsock : Winsock) :
    ((close winsock (session.preReceive winsock)).account spent).Balanced ∧
      ((close winsock (session.preReceive winsock)).account spent).Listening := by
  cases connected : session.mConnected
  · simp only [preReceive, connected, if_true, close, Bool.false_eq_true, if_false]
    exact closing_disconnect balanced ..
  · simp only [preReceive, connected, Bool.true_eq_false, if_false, close, attempt]
    cases winsock.wsaRecv
    · simp only [Bool.false_eq_true, if_false]
      apply closing_disconnect
      rwa [account_abandon]
    · simp only [if_true]
      exact posting_receiver balanced connected (Or.inl rfl) unused

theorem closing_postReceive {spent : Option IOType} (balanced : (session.account spent).Balanced)
    (unused : (session.account spent).accept + (session.account spent).recvZero +
      (session.account spent).recv = 0) (winsock : Winsock) :
    ((close winsock (session.postReceive winsock)).account spent).Balanced ∧
      ((close winsock (session.postReceive winsock)).account spent).Listening := by
  cases connected : session.mConnected
  · simp only [postReceive, connected, if_true, close, Bool.false_eq_true, if_false]
    exact closing_disconnect balanced ..
  · by_cases full : session.mRecvBuffer.getFreeSpaceSize.1 = 0
    · simp only [postReceive, connected, Bool.true_eq_false, full, if_true, if_false, close,
        Bool.false_eq_true]
      have queried : (session.query.account spent).Balanced := balanced
      exact closing_disconnect queried ..
    · simp only [postReceive, connected, Bool.true_eq_false, full, if_false, close, attempt]
      cases winsock.wsaRecv
      · simp only [Bool.false_eq_true, if_false]
        apply closing_disconnect
        rwa [account_abandon]
      · simp only [if_true]
        exact posting_receiver balanced connected (Or.inr rfl) unused

theorem closing_accepted {spent : Option IOType}
    (balanced : (SessionState.account spent { session with mConnected := true }).Balanced)
    (unused : (session.account spent).accept + (session.account spent).recvZero +
      (session.account spent).recv = 0) (winsock : Winsock) :
    ((session.accepted winsock).account spent).Balanced ∧
      ((session.accepted winsock).account spent).Listening := by
  cases setUp : acceptOk winsock
  · simp only [accepted, setUp, Bool.false_eq_true, if_false]
    exact closing_disconnect balanced ..
  · simp only [accepted, setUp, if_true, preReceive, Bool.true_eq_false, if_false, attempt]
    cases winsock.wsaRecv
    · simp only [Bool.false_eq_true, if_false, account_record_lost spent (Or.inr (Or.inl rfl)),
        account_abandon]
      exact ⟨balanced.lose, fun kept => by cases kept⟩
    · simp only [if_true]
      exact posting_receiver balanced rfl (Or.inl rfl) unused

/-- A dequeued context whose role a receiver takes over. -/
theorem spend_receiver {context : OverlappedIOContext} (settled : session.Settled)
    (contextMem : context ∈ session.live)
    (receiver : context.mIoType = .ioRecvZero ∨ context.mIoType = .ioRecv) :
    (session.account (some context.mIoType)).Balanced ∧
      (session.account (some context.mIoType)).accept +
        (session.account (some context.mIoType)).recvZero +
        (session.account (some context.mIoType)).recv = 0 := by
  have positive := role_pos contextMem
  have balanced := settled.balanced
  have receiving := balanced.receiving
  have roles := balanced.roles
  rw [account_some]
  rcases receiver with receiver | receiver <;> rw [receiver] at positive ⊢
  · have present : 0 < (session.account none).recvZero := positive
    refine ⟨balanced.spendReceiver (Or.inl ⟨rfl, present⟩), ?_⟩
    simp only [Account.spend]
    omega
  · have present : 0 < (session.account none).recv := positive
    refine ⟨balanced.spendReceiver (Or.inr ⟨rfl, present⟩), ?_⟩
    simp only [Account.spend]
    omega

theorem spend_accept {context : OverlappedIOContext} (settled : session.Settled)
    (contextMem : context ∈ session.live) (kind : context.mIoType = .ioAccept) :
    session.mConnected = false ∧
      (account (some .ioAccept) { session with mConnected := true }).Balanced ∧
      (session.account (some .ioAccept)).accept + (session.account (some .ioAccept)).recvZero +
        (session.account (some .ioAccept)).recv = 0 := by
  have positive := role_pos contextMem
  rw [kind] at positive
  have present : 0 < (session.account none).accept := positive
  have balanced := settled.balanced
  have receiving := balanced.receiving
  have closing := balanced.closing
  have roles := balanced.roles
  have flags := balanced.flags
  refine ⟨?_, ?_, ?_⟩
  · have closed : (session.account none).connected = 0 := by omega
    simpa [account] using closed
  · have spent : session.account (some .ioAccept) = _ := account_some .ioAccept
    have connected : account (some .ioAccept) { session with mConnected := true } =
        { session.account (some .ioAccept) with connected := 1 } := rfl
    rw [connected, spent]
    exact balanced.spendAccept present
  · rw [account_some]
    simp only [Account.spend]
    omega

theorem closing_send (settled : session.Settled) {context : OverlappedIOContext}
    (contextMem : context ∈ session.live) (kind : context.mIoType = .ioSend) (transferred : ℕ)
    (winsock : Winsock) (completionOk : Bool) :
    ((close winsock (completionOk, session.sendCompletion context transferred)).account
        (some .ioSend)).Balanced ∧
      ((close winsock (completionOk, session.sendCompletion context transferred)).account
        (some .ioSend)).Listening := by
  have positive := role_pos contextMem
  rw [kind] at positive
  have completed : (session.sendCompletion context transferred).account (some .ioSend) =
      { (session.account none).spend .ioSend with
        pending := (session.account none).pending - 1 } := by
    rw [← account_some]
    rfl
  have balanced := settled.balanced.spendSend positive
  rw [← completed] at balanced
  cases completionOk
  · simp only [close, Bool.false_eq_true, if_false]
    exact closing_disconnect balanced ..
  · simp only [close, if_true]
    refine ⟨balanced, ?_⟩
    rw [completed]
    exact settled.listening

/-- The failure path of a send or a receive. -/
theorem closing_failed (settled : session.Settled) {context : OverlappedIOContext}
    (contextMem : context ∈ session.live)
    (kind : context.mIoType = .ioRecv ∨ context.mIoType = .ioSend) (winsock : Winsock) :
    (((if context.mIoType = .ioSend then session.record .sendFailed else session).disconnect
        .drCompletionError winsock).account (some context.mIoType)).Balanced ∧
      (((if context.mIoType = .ioSend then session.record .sendFailed else session).disconnect
        .drCompletionError winsock).account (some context.mIoType)).Listening := by
  have positive := role_pos contextMem
  apply closing_disconnect
  rcases kind with kind | kind
  · simp only [kind, reduceCtorEq, if_false]
    rw [← kind]
    exact (spend_receiver settled contextMem (Or.inr kind)).1
  · simp only [kind, if_true]
    have failed : (session.record .sendFailed).account (some .ioSend) =
        { (session.account none).spend .ioSend with
          failedSends := (session.account none).failedSends + 1 } := by
      rw [← account_some]
      rfl
    rw [failed]
    rw [kind] at positive
    exact settled.balanced.failSend positive

theorem closing_disconnected (settled : session.Settled) {context : OverlappedIOContext}
    (contextMem : context ∈ session.live) (kind : context.mIoType = .ioDisconnect) :
    (session.disconnected.account (some .ioDisconnect)).Balanced ∧
      (session.disconnected.account (some .ioDisconnect)).Listening := by
  have positive := role_pos contextMem
  rw [kind] at positive
  have completed : session.disconnected.account (some .ioDisconnect) =
      { (session.account none).spend .ioDisconnect with
        refCount := (session.account none).refCount - 1, issueRef := 0 } := by
    rw [← account_some]
    rfl
  rw [completed]
  have balanced := settled.balanced.spendDisconnect positive
  refine ⟨balanced, ?_⟩
  intro _ connected
  have support := balanced.support
  have roles := balanced.roles
  simp only [Account.spend] at connected support roles
  omega

/-- A handler up to its final deletion. -/
theorem handle_settled (settled : session.Settled) {context : OverlappedIOContext}
    (handled : context ∈ session.handled) {completion : Completion} (winsock : Winsock)
    (notReceived : context.mIoType = .ioRecv →
      completion.ret = false ∨ completion.dwTransferred = 0) :
    (((session.handle context completion winsock).account (some context.mIoType)).Balanced ∧
      ((session.handle context completion winsock).account (some context.mIoType)).Listening) ∧
      context ∈ (session.handle context completion winsock).handled := by
  have contextMem : context ∈ session.live := List.mem_append_right _ handled
  have known := known_of_mem settled.balanced contextMem
  by_cases failed : (completion.ret = false ∨ completion.dwTransferred = 0) ∧
      (context.mIoType = .ioRecv ∨ context.mIoType = .ioSend)
  · simp only [handle, if_pos failed]
    refine ⟨closing_failed settled contextMem failed.2 winsock, ?_⟩
    rw [handled_disconnect]
    split
    · exact handled
    · exact handled
  · simp only [handle, if_neg failed]
    cases kind : context.mIoType with
    | ioNone => exact absurd kind known.1
    | ioConnect => exact absurd kind known.2
    | ioRecv => exact absurd ⟨notReceived kind, Or.inl kind⟩ failed
    | ioDisconnect => exact ⟨closing_disconnected settled contextMem kind, handled⟩
    | ioAccept =>
        rcases spend_accept settled contextMem kind with ⟨_, balanced, unused⟩
        refine ⟨closing_accepted balanced unused winsock, ?_⟩
        rwa [handled_accepted]
    | ioRecvZero =>
        rcases spend_receiver settled contextMem (Or.inl kind) with ⟨balanced, unused⟩
        rw [kind] at balanced unused
        refine ⟨closing_postReceive balanced unused winsock, ?_⟩
        rwa [handled_close, handled_postReceive]
    | ioSend =>
        refine ⟨closing_send settled contextMem kind _ winsock _, ?_⟩
        rwa [handled_close]

/-- The rest of the `IO_RECV` branch up to its final deletion. -/
theorem finish_settled (settled : session.Settled) {context : OverlappedIOContext}
    (handled : context ∈ session.handled) (kind : context.mIoType = .ioRecv) (winsock : Winsock) :
    (((session.finish winsock).account (some context.mIoType)).Balanced ∧
      ((session.finish winsock).account (some context.mIoType)).Listening) ∧
      context ∈ (session.finish winsock).handled := by
  rcases spend_receiver settled (List.mem_append_right _ handled) (Or.inr kind) with
    ⟨balanced, unused⟩
  refine ⟨closing_preReceive balanced unused winsock, ?_⟩
  rwa [finish, handled_close, handled_preReceive]

/-- The final deletion. -/
theorem discard_settled {context : OverlappedIOContext} (handled : context ∈ session.handled)
    (balanced : (session.account (some context.mIoType)).Balanced)
    (listening : (session.account (some context.mIoType)).Listening) :
    (session.discard context).Settled := by
  constructor
  · rw [account_discard handled]
    exact balanced.discard (by simp [account])
  · rw [account_discard handled]
    simp only [Account.discard]
    split
    · intro _ connected
      cases connected
    · exact listening

/-- A session in the pool is closed. -/
theorem closed_of_free (settled : session.Settled) (free : issued session.trace = false) :
    (session.account none).connected = 0 := by
  have balanced := settled.balanced
  have references := balanced.references
  have roles := balanced.roles
  have flags := balanced.flags
  have support := balanced.support
  have unreferenced := balanced.free free
  omega

/-- An issued session is settled. -/
theorem issue_settled (settled : session.Settled) (free : issued session.trace = false)
    (winsock : Winsock) : (session.issue winsock).Settled := by
  have closed := closed_of_free settled free
  have stays : (session.issue winsock).mConnected = session.mConnected := by
    simp only [issue, attempt]
    split <;> rfl
  have closedAfter : (session.issue winsock).mConnected = false := by
    rw [stays]
    simpa [account] using closed
  refine ⟨?_, listening_of_closed none closedAfter⟩
  simp only [issue, attempt]
  cases winsock.acceptEx
  · simp only [Bool.false_eq_true, if_false, account_record_lost none (Or.inr (Or.inr rfl)),
      account_abandon]
    exact settled.balanced.issueRefused free
  · simp only [if_true, account_post]
    exact settled.balanced.issuePosted free

/-- A send leaves the session settled. -/
theorem flush_settled (settled : session.Settled) (winsock : Winsock) :
    (session.flush winsock).2.Settled := by
  rcases flush_cases winsock session with same | ⟨context, isFresh, connected, _, idle, sends⟩
  · rwa [same]
  have kind : context.mIoType = .ioSend := congrArg OverlappedIOContext.mIoType isFresh
  rcases sends with posted | refused
  · have flag := connected_account none connected
    have sent : account none { session.post context with
          mSendPendingCount := session.mSendPendingCount + 1 } =
        { (session.account none).post .ioSend with
          pending := (session.account none).pending + 1 } := by
      rw [← kind, ← account_post]
      rfl
    rw [posted]
    constructor
    · rw [sent]
      exact settled.balanced.postSend flag idle
    · rw [sent]
      exact settled.listening
  · have abandoned : ((session.abandon context).account none).Balanced := by
      rw [account_abandon, kind]
      exact settled.balanced
    rw [refused]
    rcases closing_disconnect abandoned .drSendFlushError winsock with ⟨balanced, listening⟩
    exact ⟨balanced, listening⟩

end SessionState

end Gsp.Homework5
