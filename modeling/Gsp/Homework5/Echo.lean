import Gsp.Homework5.Frame

/-!
# The bytes of a connection

`Echoing` is the law of the two buffers of a client session: the bytes sent, then
the send buffer, then the receive buffer make up the bytes received, and the
windows that Winsock has been given lie where the buffers expect them. Together
with the settled account it is kept by every turn.
-/

namespace Gsp.Homework5

namespace SessionState

open CircularBuffer

variable {session before after : SessionState} {context : OverlappedIOContext}

/-- How the buffers, the windows and the bytes of a session belong together. -/
structure Echoing (session : SessionState) : Prop where
  recvBuffer : session.mRecvBuffer.WellFormed
  sendBuffer : session.mSendBuffer.WellFormed
  recvCapacity : session.mRecvBuffer.mCapacity = clientBufSize
  sendCapacity : session.mSendBuffer.mCapacity = clientBufSize
  recvWindow : ∀ context ∈ session.inFlight, context.mIoType = .ioRecv →
    ∃ free, session.mRecvBuffer.Offered free ∧
      context.mWsaBuf = ⟨free, some session.mRecvBuffer.getBuffer⟩
  sendWindow : ∀ context ∈ session.inFlight, context.mIoType = .ioSend →
    context.mWsaBuf.buf = some session.mSendBuffer.mARegionPointer ∧
      context.mWsaBuf.len ≤ session.mSendBuffer.mARegionSize ∧
      context.posted = Region.read session.mSendBuffer.mBuffer session.mSendBuffer.mARegionPointer
        context.mWsaBuf.len
  echoed : issued session.trace = true →
    sent session.trace ++ session.mSendBuffer.contents ++ session.mRecvBuffer.contents =
      received session.trace
  emptied : issued session.trace = false →
    session.mSendBuffer.contents = [] ∧ session.mRecvBuffer.contents = []
  prefixed : sent session.trace <+: received session.trace

/-- The law between two steps. -/
structure Kept (session : SessionState) : Prop where
  settled : session.Settled
  echoing : session.Echoing

/-! ## Counting the contexts in flight -/

/-- One receiver at a time. -/
theorem receivers_le (settled : session.Settled) :
    session.tokens .ioAccept + session.tokens .ioRecvZero + session.tokens .ioRecv ≤ 1 := by
  have receiving := settled.balanced.receiving
  simp only [account, role, reduceCtorEq, if_false] at receiving
  omega

/-- One send at a time. -/
theorem sends_le (settled : session.Settled) : session.tokens .ioSend ≤ 1 := by
  have oneSend := settled.balanced.oneSend
  simp only [account, role, reduceCtorEq, if_false] at oneSend
  omega

/-- With no send pending none is in flight. -/
theorem sends_eq_zero (settled : session.Settled) (idle : session.mSendPendingCount ≤ 0) :
    session.tokens .ioSend = 0 := by
  have sending := settled.balanced.sending
  simp only [account, role, reduceCtorEq, if_false] at sending
  omega

theorem inFlight_tokens_le (kind : IOType) :
    tally OverlappedIOContext.mIoType session.inFlight kind ≤ session.tokens kind := by
  simp only [tokens, live, Tally.tally_append]
  omega

theorem ne_of_tokens {kind : IOType} (unused : session.tokens kind = 0)
    (contextMem : context ∈ session.live) : context.mIoType ≠ kind := by
  rintro rfl
  have positive : 0 < session.tokens context.mIoType := Tally.tally_pos contextMem
  omega

/-- While a receive is handled, no other is in flight. -/
theorem ne_recv_of_handled (settled : session.Settled) (handled : context ∈ session.handled)
    (kind : context.mIoType = .ioRecv) {other : OverlappedIOContext}
    (otherMem : other ∈ session.inFlight) : other.mIoType ≠ .ioRecv := by
  intro otherKind
  have receivers := receivers_le settled
  have first : 0 < tally OverlappedIOContext.mIoType session.handled context.mIoType :=
    Tally.tally_pos handled
  have second : 0 < tally OverlappedIOContext.mIoType session.inFlight other.mIoType :=
    Tally.tally_pos otherMem
  simp only [tokens, live, Tally.tally_append] at receivers
  rw [kind] at first
  rw [otherKind] at second
  omega

theorem ne_of_mem_erase (inFlight : context ∈ session.inFlight)
    (single : session.tokens context.mIoType ≤ 1) {other : OverlappedIOContext}
    (otherMem : other ∈ session.inFlight.erase context) :
    other.mIoType ≠ context.mIoType := by
  apply Tally.ne_of_mem_erase inFlight _ otherMem
  exact (inFlight_tokens_le _).trans single

/-- Only an issued session has contexts. -/
theorem issued_of_live (settled : session.Settled) (contextMem : context ∈ session.live) :
    issued session.trace = true := by
  by_contra free
  have unreferenced := settled.balanced.free (by simpa [account] using free)
  have references := references_eq settled.balanced
  have some := List.length_pos_of_mem contextMem
  simp only [account] at unreferenced
  omega

/-- Only the context being deleted is left when its reference is the last. -/
theorem inFlight_of_last (balanced : (session.account (some context.mIoType)).Balanced)
    (handled : context ∈ session.handled) (only : session.mRefCount = 1) :
    session.inFlight = [] := by
  have references := references_eq balanced
  have some := List.length_pos_of_mem handled
  simp only [live, List.length_append] at references
  apply List.length_eq_zero_iff.mp
  omega

/-! ## Quiet steps -/

/-- What leaves the buffers alone keeps the law. -/
theorem Echoing.quiet (echoing : before.Echoing) (quiet : Quiet before after) : after.Echoing := by
  rcases echoing with ⟨recvBuffer, sendBuffer, recvCapacity, sendCapacity, recvWindow, sendWindow,
    echoed, emptied, prefixed⟩
  constructor
  · rwa [quiet.recvBuffer]
  · rwa [quiet.sendBuffer]
  · rwa [quiet.recvBuffer]
  · rwa [quiet.sendBuffer]
  · intro context contextMem kind
    rw [quiet.recvBuffer]
    exact recvWindow context (quiet.windows context contextMem (Or.inl kind)) kind
  · intro context contextMem kind
    rw [quiet.sendBuffer]
    exact sendWindow context (quiet.windows context contextMem (Or.inr kind)) kind
  · rwa [quiet.steady.issued_eq, quiet.sent_eq, quiet.received_eq, quiet.recvBuffer,
      quiet.sendBuffer]
  · rwa [quiet.steady.issued_eq, quiet.recvBuffer, quiet.sendBuffer]
  · rwa [quiet.sent_eq, quiet.received_eq]

/-! ## Receiving -/

theorem echoing_query (echoing : session.Echoing)
    (noRecv : ∀ context ∈ session.inFlight, context.mIoType ≠ .ioRecv) :
    session.query.Echoing where
  recvBuffer := echoing.recvBuffer.getFreeSpaceSize
  sendBuffer := echoing.sendBuffer
  recvCapacity := by
    rw [query, capacity_getFreeSpaceSize]
    exact echoing.recvCapacity
  sendCapacity := echoing.sendCapacity
  recvWindow := fun context contextMem kind => absurd kind (noRecv context contextMem)
  sendWindow := echoing.sendWindow
  echoed := by
    intro isIssued
    simp only [query, echoing.recvBuffer.contents_getFreeSpaceSize]
    exact echoing.echoed isIssued
  emptied := by
    intro free
    simp only [query, echoing.recvBuffer.contents_getFreeSpaceSize]
    exact echoing.emptied free
  prefixed := echoing.prefixed

/-- The window of a receive is what the buffer offers. -/
theorem recvWindow_query (echoing : session.Echoing) :
    session.query.recvWindow =
      ⟨session.mRecvBuffer.getFreeSpaceSize.1, some session.query.mRecvBuffer.getBuffer⟩ ∧
    session.query.mRecvBuffer.Offered session.mRecvBuffer.getFreeSpaceSize.1 := by
  have offered := echoing.recvBuffer.offered_getFreeSpaceSize
  refine ⟨?_, offered⟩
  have inside := echoing.recvBuffer.getFreeSpaceSize.window_inside offered
  rw [capacity_getFreeSpaceSize, echoing.recvCapacity] at inside
  have size : clientBufSize < 2 ^ 32 := by decide
  have again : session.query.mRecvBuffer.getFreeSpaceSize.1 =
      session.mRecvBuffer.getFreeSpaceSize.1 := congrArg Prod.fst offered
  simp only [SessionState.recvWindow, again]
  rw [Word.toUInt32_eq]
  omega

theorem echoing_postReceive (echoing : session.Echoing)
    (noRecv : ∀ context ∈ session.inFlight, context.mIoType ≠ .ioRecv) (winsock : Winsock) :
    (session.postReceive winsock).2.Echoing := by
  have queried := echoing_query echoing noRecv
  simp only [postReceive]
  split
  · exact echoing
  · split
    · exact queried
    · simp only [attempt]
      split
      · rcases recvWindow_query echoing with ⟨window, offered⟩
        refine ⟨queried.recvBuffer, queried.sendBuffer, queried.recvCapacity,
          queried.sendCapacity, ?_, ?_, queried.echoed, queried.emptied, queried.prefixed⟩
        · intro context contextMem kind
          rcases List.mem_append.mp contextMem with contextMem | contextMem
          · exact absurd kind (noRecv context contextMem)
          · rw [List.mem_singleton.mp contextMem]
            exact ⟨_, offered, window⟩
        · intro context contextMem kind
          rcases List.mem_append.mp contextMem with contextMem | contextMem
          · exact queried.sendWindow context contextMem kind
          · rw [List.mem_singleton.mp contextMem] at kind
            cases kind
      · exact queried.quiet (Quiet.abandon _ _)

theorem recvBuffer_receive (echoing : session.Echoing) (inFlight : context ∈ session.inFlight)
    {completion : Completion} (reports : completion.Reports context)
    (arrives : Arrives context completion) :
    ∃ free, session.mRecvBuffer.Offered free ∧ completion.data.length ≤ free ∧
      ((session.dequeue context completion).recvCompletion completion).mRecvBuffer =
        (session.mRecvBuffer.store completion.data).commit completion.data.length := by
  rcases arrives with ⟨kind, success⟩
  rcases echoing.recvWindow context inFlight kind with ⟨free, offered, window⟩
  have returned : completion.ret = true := by
    by_contra failed
    exact success (Or.inl (by simpa using failed))
  have length := reports.2 kind
  have fits := reports.1
  simp only [window] at fits
  refine ⟨free, offered, by omega, ?_⟩
  simp only [recvCompletion, record, dequeue, kind, returned, window, length]
  rfl

/-- Received bytes go behind those that are there. -/
theorem echoing_receive (kept : session.Kept) (inFlight : context ∈ session.inFlight)
    {completion : Completion} (reports : completion.Reports context)
    (arrives : Arrives context completion) :
    ((session.dequeue context completion).recvCompletion completion).Echoing := by
  rcases kept with ⟨settled, echoing⟩
  rcases recvBuffer_receive echoing inFlight reports arrives with ⟨free, offered, fits, buffer⟩
  have isIssued := issued_of_live settled (List.mem_append_left _ inFlight)
  have single : session.tokens context.mIoType ≤ 1 := by
    have receivers := receivers_le settled
    rw [arrives.1]
    omega
  constructor
  · rw [buffer]
    exact echoing.recvBuffer.store_commit offered fits
  · exact echoing.sendBuffer
  · rw [buffer, capacity_commit, capacity_store]
    exact echoing.recvCapacity
  · exact echoing.sendCapacity
  · intro other otherMem otherKind
    exact absurd (otherKind.trans arrives.1.symm) (ne_of_mem_erase inFlight single otherMem)
  · intro other otherMem otherKind
    exact echoing.sendWindow other (List.mem_of_mem_erase otherMem) otherKind
  · intro _
    rw [buffer, echoing.recvBuffer.contents_store_commit offered fits, ← List.append_assoc]
    exact congrArg (· ++ completion.data) (echoing.echoed isIssued)
  · intro free
    have stays : issued session.trace = false := free
    rw [isIssued] at stays
    cases stays
  · exact echoing.prefixed.trans (List.prefix_append _ _)

/-! ## Sending -/

/-- Sent bytes leave the front. -/
theorem echoing_sendCompletion (kept : session.Kept) (inFlight : context ∈ session.inFlight)
    (kind : context.mIoType = .ioSend) {completion : Completion}
    (reports : completion.Reports context) :
    ((session.dequeue context completion).sendCompletion context
      completion.dwTransferred).Echoing := by
  rcases kept with ⟨settled, echoing⟩
  have isIssued := issued_of_live settled (List.mem_append_left _ inFlight)
  have single : session.tokens context.mIoType ≤ 1 := by
    rw [kind]
    exact sends_le settled
  have buffer : (session.dequeue context completion).mRecvBuffer = session.mRecvBuffer := by
    simp only [dequeue, kind]
  rcases echoing.sendWindow context inFlight kind with ⟨_, inside, posted⟩
  have transmitted : context.posted.take completion.dwTransferred =
      session.mSendBuffer.contents.take completion.dwTransferred := by
    have fits : completion.dwTransferred ≤ session.mSendBuffer.mARegionSize :=
      reports.1.trans inside
    rw [posted, Region.take_read _ _ _ _ reports.1, contents, List.take_append_of_le_length,
      bytesA, Region.take_read _ _ _ _ fits]
    rwa [length_bytesA]
  have total : (sent session.trace ++ context.posted.take completion.dwTransferred) ++
      (session.mSendBuffer.remove completion.dwTransferred).contents ++
      session.mRecvBuffer.contents = received session.trace := by
    rw [transmitted, echoing.sendBuffer.contents_remove, List.append_assoc (sent _),
      List.take_append_drop]
    exact echoing.echoed isIssued
  constructor
  · simp only [sendCompletion, record, buffer]
    exact echoing.recvBuffer
  · exact echoing.sendBuffer.remove _
  · simp only [sendCompletion, record, buffer]
    exact echoing.recvCapacity
  · rw [sendCompletion, record, capacity_remove]
    exact echoing.sendCapacity
  · intro other otherMem otherKind
    simp only [sendCompletion, record, buffer]
    exact echoing.recvWindow other (List.mem_of_mem_erase otherMem) otherKind
  · intro other otherMem otherKind
    exact absurd (otherKind.trans kind.symm) (ne_of_mem_erase inFlight single otherMem)
  · intro _
    simp only [sendCompletion, record, buffer]
    exact total
  · intro free
    have stays : issued session.trace = false := free
    rw [isIssued] at stays
    cases stays
  · refine ⟨(session.mSendBuffer.remove completion.dwTransferred).contents ++
      session.mRecvBuffer.contents, ?_⟩
    rw [← List.append_assoc]
    exact total

/-- The window of a send is the whole of region A. -/
theorem sendWindow_eq (echoing : session.Echoing) :
    session.sendWindow.len = session.mSendBuffer.mARegionSize := by
  have regionA := echoing.sendBuffer.regionA
  have size : clientBufSize < 2 ^ 32 := by decide
  rw [echoing.sendCapacity] at regionA
  simp only [SessionState.sendWindow, echoing.sendBuffer.getContiguiousBytes_eq]
  apply Word.toUInt32_eq
  omega

/-- A send gets the front of the send buffer as its window. -/
theorem echoing_flush (kept : session.Kept) (winsock : Winsock) :
    (session.flush winsock).2.Echoing := by
  rcases kept with ⟨settled, echoing⟩
  rcases flush_cases winsock session with
    same | ⟨sendContext, rfl, _, nonempty, idle, posted | refused⟩
  · rwa [same]
  · have noSends := sends_eq_zero settled idle
    rw [echoing.sendBuffer.getContiguiousBytes_eq] at nonempty
    rw [posted]
    refine ⟨echoing.recvBuffer, echoing.sendBuffer, echoing.recvCapacity,
      echoing.sendCapacity, ?_, ?_, echoing.echoed, echoing.emptied, echoing.prefixed⟩
    · intro context contextMem kind
      rcases List.mem_append.mp contextMem with contextMem | contextMem
      · exact echoing.recvWindow context contextMem kind
      · rw [List.mem_singleton.mp contextMem] at kind
        cases kind
    · intro context contextMem kind
      rcases List.mem_append.mp contextMem with contextMem | contextMem
      · exact absurd kind (ne_of_tokens noSends (List.mem_append_left _ contextMem))
      · rw [List.mem_singleton.mp contextMem]
        have length := sendWindow_eq echoing
        refine ⟨?_, Nat.le_of_eq length, ?_⟩
        · simp [fresh, SessionState.sendWindow, getBufferStart,
            Nat.pos_of_ne_zero nonempty, post]
        · simp only [fresh, length]
          exact echoing.sendBuffer.peek_eq_bytesA
  · rw [refused]
    exact echoing.quiet ((Quiet.abandon _ _).trans (Quiet.disconnect ..))

/-! ## Echoing -/

/-- A send buffer that grew behind region A still holds what is being sent. -/
theorem sendWindow_grow (echoing : session.Echoing) {buffer : CircularBuffer}
    (start : buffer.mARegionPointer = session.mSendBuffer.mARegionPointer)
    (grown : session.mSendBuffer.mARegionSize ≤ buffer.mARegionSize)
    (same : Region.read buffer.mBuffer session.mSendBuffer.mARegionPointer
      session.mSendBuffer.mARegionSize = session.mSendBuffer.bytesA) :
    ∀ context ∈ session.inFlight, context.mIoType = .ioSend →
      context.mWsaBuf.buf = some buffer.mARegionPointer ∧
        context.mWsaBuf.len ≤ buffer.mARegionSize ∧
        context.posted = Region.read buffer.mBuffer buffer.mARegionPointer context.mWsaBuf.len := by
  intro context contextMem kind
  rcases echoing.sendWindow context contextMem kind with ⟨position, inside, posted⟩
  refine ⟨by rw [start, position], inside.trans grown, ?_⟩
  rw [posted, start, ← Region.take_read session.mSendBuffer.mBuffer _ _ _ inside,
    ← Region.take_read buffer.mBuffer _ _ _ inside, same, bytesA]

theorem regionA_getFreeSpaceSize (buffer : CircularBuffer) :
    buffer.getFreeSpaceSize.2.mARegionPointer = buffer.mARegionPointer ∧
      buffer.getFreeSpaceSize.2.mARegionSize = buffer.mARegionSize ∧
      buffer.getFreeSpaceSize.2.mBuffer = buffer.mBuffer := by
  simp only [getFreeSpaceSize, allocateB]
  split
  · exact ⟨rfl, rfl, rfl⟩
  · split <;> exact ⟨rfl, rfl, rfl⟩

/-- A `PostSend` refused for lack of space. -/
theorem echoing_refused (echoing : session.Echoing) :
    Echoing { session with mSendBuffer := session.mSendBuffer.getFreeSpaceSize.2 } := by
  rcases regionA_getFreeSpaceSize session.mSendBuffer with ⟨start, size, memory⟩
  have same := echoing.sendBuffer.contents_getFreeSpaceSize
  constructor
  · exact echoing.recvBuffer
  · exact echoing.sendBuffer.getFreeSpaceSize
  · exact echoing.recvCapacity
  · rw [capacity_getFreeSpaceSize]
    exact echoing.sendCapacity
  · exact echoing.recvWindow
  · apply sendWindow_grow echoing start (Nat.le_of_eq size.symm)
    rw [memory, bytesA]
  · rw [same]
    exact echoing.echoed
  · rw [same]
    exact echoing.emptied
  · exact echoing.prefixed

/-- The contiguous bytes move from the receive buffer to the send buffer. -/
theorem echoing_moved (echoing : session.Echoing) (isIssued : issued session.trace = true)
    (noRecv : ∀ context ∈ session.inFlight, context.mIoType ≠ .ioRecv)
    (fits : session.mRecvBuffer.peek.length ≤ session.mSendBuffer.getFreeSpaceSize.1) :
    Echoing { session with
      mRecvBuffer := session.mRecvBuffer.remove session.mRecvBuffer.getContiguiousBytes
      mSendBuffer := (session.mSendBuffer.getFreeSpaceSize.2.store
        session.mRecvBuffer.peek).commit session.mRecvBuffer.peek.length } := by
  have offered := echoing.sendBuffer.offered_getFreeSpaceSize
  have queried := echoing.sendBuffer.getFreeSpaceSize
  rcases regionA_getFreeSpaceSize session.mSendBuffer with ⟨start, size, memory⟩
  rcases queried.store_commit_bytesA offered fits with ⟨stays, grown, untouched⟩
  have stored : ((session.mSendBuffer.getFreeSpaceSize.2.store session.mRecvBuffer.peek).commit
      session.mRecvBuffer.peek.length).mBuffer =
      (session.mSendBuffer.getFreeSpaceSize.2.store session.mRecvBuffer.peek).mBuffer := by
    simp only [commit]
    split <;> rfl
  have moved := queried.contents_store_commit offered fits
  rw [echoing.sendBuffer.contents_getFreeSpaceSize, echoing.recvBuffer.peek_eq_bytesA] at moved
  have rest : (session.mRecvBuffer.remove session.mRecvBuffer.getContiguiousBytes).contents =
      session.mRecvBuffer.bytesB := by
    rw [echoing.recvBuffer.contents_remove, echoing.recvBuffer.getContiguiousBytes_eq, contents]
    exact List.drop_left' (length_bytesA _)
  constructor
  · exact echoing.recvBuffer.remove _
  · exact queried.store_commit offered fits
  · rw [capacity_remove]
    exact echoing.recvCapacity
  · rw [capacity_commit, capacity_store, capacity_getFreeSpaceSize]
    exact echoing.sendCapacity
  · intro context contextMem kind
    exact absurd kind (noRecv context contextMem)
  · apply sendWindow_grow echoing (stays.trans start)
    · rwa [size] at grown
    · rw [stored, ← start, ← size, untouched, bytesA, bytesA, start, size, memory]
  · intro _
    have total := echoing.echoed isIssued
    rw [contents.eq_1 session.mRecvBuffer] at total
    rw [rest, echoing.recvBuffer.peek_eq_bytesA, moved, ← total]
    simp only [List.append_assoc]
  · intro free
    rw [isIssued] at free
    cases free
  · exact echoing.prefixed

/-- `EchoBack` runs while the completed receive is handled. -/
theorem echoing_echoBack (kept : session.Kept) (handled : context ∈ session.handled)
    (kind : context.mIoType = .ioRecv) (self : SessionId) (queue : List SendRequest) :
    (session.echoBack self queue).2.Echoing := by
  rcases kept with ⟨settled, echoing⟩
  rcases echoBack_cases self queue session with echo | echo | ⟨_, fits, echo⟩ <;> rw [echo]
  · exact echoing
  · exact echoing_refused echoing
  · apply echoing_moved echoing _ _ fits
    · exact issued_of_live settled (List.mem_append_right _ handled)
    · intro other otherMem
      exact ne_recv_of_handled settled handled kind otherMem

/-! ## Issuing and returning -/

theorem echoing_issue (kept : session.Kept) (free : issued session.trace = false)
    (winsock : Winsock) : (session.issue winsock).Echoing := by
  rcases kept with ⟨settled, echoing⟩
  apply Echoing.quiet _ (Quiet.issue winsock session)
  rcases echoing.emptied free with ⟨sendEmpty, recvEmpty⟩
  refine ⟨echoing.recvBuffer, echoing.sendBuffer, echoing.recvCapacity, echoing.sendCapacity,
    echoing.recvWindow, echoing.sendWindow, ?_, ?_, List.prefix_refl _⟩
  · intro _
    simp [record, sent, received, sendEmpty, recvEmpty]
  · intro stillFree
    cases stillFree

theorem echoing_recycle (echoing : session.Echoing) (unused : session.inFlight = []) :
    (session.recycle context).Echoing := by
  apply Echoing.quiet _ (Quiet.recycle context session)
  constructor
  · exact echoing.recvBuffer.bufferReset
  · exact echoing.sendBuffer.bufferReset
  · exact echoing.recvCapacity
  · exact echoing.sendCapacity
  · intro other otherMem
    have none : other ∈ session.inFlight := otherMem
    rw [unused] at none
    cases none
  · intro other otherMem
    have none : other ∈ session.inFlight := otherMem
    rw [unused] at none
    cases none
  · intro isIssued
    cases isIssued
  · intro _
    exact ⟨contents_bufferReset _, contents_bufferReset _⟩
  · exact echoing.prefixed

/-- A returned session has empty buffers. -/
theorem echoing_discard (echoing : session.Echoing)
    (balanced : (session.account (some context.mIoType)).Balanced)
    (handled : context ∈ session.handled) : (session.discard context).Echoing := by
  simp only [discard]
  split
  · next only => exact echoing_recycle echoing (inFlight_of_last balanced handled only)
  · exact echoing.quiet (Quiet.drop context session)

/-! ## Every turn -/

theorem echoing_handle (kept : session.Kept) (inFlight : context ∈ session.inFlight)
    {completion : Completion} (reports : completion.Reports context)
    (notArrives : ¬Arrives context completion) (winsock : Winsock) :
    ((session.dequeue context completion).handle context completion winsock).Echoing := by
  have back := Quiet.dequeue reports notArrives session
  have dequeued := kept.echoing.quiet back
  simp only [handle]
  split
  · split
    · have failed : Event.Quiet .sendFailed := trivial
      exact (dequeued.quiet (Quiet.record failed _)).quiet (Quiet.disconnect ..)
    · exact dequeued.quiet (Quiet.disconnect ..)
  · cases kind : context.mIoType with
    | ioDisconnect => exact dequeued.quiet (Quiet.disconnected _)
    | ioAccept => exact dequeued.quiet (Quiet.accepted ..)
    | ioRecvZero =>
        have receivers := receivers_le kept.settled
        have positive : 0 < session.tokens context.mIoType :=
          Tally.tally_pos (List.mem_append_left _ inFlight)
        rw [kind] at positive
        have noRecv : session.tokens .ioRecv = 0 := by omega
        apply Echoing.quiet (echoing_postReceive dequeued _ winsock) (Quiet.close ..)
        intro other otherMem
        exact ne_of_tokens noRecv (List.mem_append_left _ (List.mem_of_mem_erase otherMem))
    | ioSend =>
        exact (echoing_sendCompletion kept inFlight kind reports).quiet (Quiet.close winsock (_, _))
    | ioNone => exact dequeued
    | ioConnect => exact dequeued
    | ioRecv => exact dequeued

/-- Every turn keeps the law. -/
theorem kept_turn (kept : session.Kept) (turn : Turn session after) : after.Kept := by
  refine ⟨settled_turn kept.settled turn, ?_⟩
  cases turn with
  | issue winsock free => exact echoing_issue kept free winsock
  | @handle context completion winsock inFlight reports notArrives =>
      rcases handle_settled (settled_dequeue kept.settled inFlight completion)
        List.mem_cons_self winsock (notReceived_of_notArrives notArrives) with
        ⟨⟨balanced, _⟩, handled⟩
      exact echoing_discard (echoing_handle kept inFlight reports notArrives winsock) balanced
        handled
  | receive inFlight reports arrives => exact echoing_receive kept inFlight reports arrives
  | echo self queue handled kind => exact echoing_echoBack kept handled kind self queue
  | finish winsock handled kind =>
      rcases finish_settled kept.settled handled kind winsock with ⟨⟨balanced, _⟩, stillHandled⟩
      apply echoing_discard _ balanced stillHandled
      exact kept.echoing.quiet ((Quiet.preReceive ..).trans (Quiet.close ..))
  | flush winsock => exact echoing_flush kept winsock

end SessionState

end Gsp.Homework5
