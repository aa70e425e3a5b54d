import Gsp.Homework5.Turn

/-!
# What the handlers leave alone

Between being issued and being returned a session stays on one connection:
`Steady` is the relation of all that happens in between. Most of it also leaves
the buffers and the windows given to Winsock alone, and adds to the history
nothing about the bytes; `Quiet` is that smaller relation.
-/

namespace Gsp.Homework5

namespace Event

/-- Neither the beginning nor the end of a connection. -/
def Steady : Event → Prop
  | .issued => False
  | .returned _ => False
  | _ => True

/-- Nothing about the connection or its bytes. -/
def Quiet : Event → Prop
  | .issued => False
  | .received _ => False
  | .sendCompleted _ => False
  | .returned _ => False
  | _ => True

theorem Quiet.steady {event : Event} (quiet : event.Quiet) : event.Steady := by
  cases event <;> first | exact quiet.elim | trivial

end Event

/-- A reading of the history that passes over some events. -/
theorem read_append {Reading : Type} (read : List Event → Reading) {Skipped : Event → Prop}
    (skips : ∀ event earlier, Skipped event → read (event :: earlier) = read earlier)
    {events : List Event} (skipped : ∀ event ∈ events, Skipped event) (earlier : List Event) :
    read (events ++ earlier) = read earlier := by
  induction events with
  | nil => rfl
  | cons event events ih =>
      rw [List.cons_append, skips event _ (skipped event List.mem_cons_self)]
      apply ih
      intro other otherMem
      exact skipped other (List.mem_cons_of_mem event otherMem)

theorem issued_steady (event : Event) (earlier : List Event) (steady : event.Steady) :
    issued (event :: earlier) = issued earlier := by
  cases event <;> first | exact steady.elim | rfl

theorem connections_steady (event : Event) (earlier : List Event) (steady : event.Steady) :
    connections (event :: earlier) = connections earlier := by
  cases event <;> first | exact steady.elim | rfl

theorem received_quiet (event : Event) (earlier : List Event) (quiet : event.Quiet) :
    received (event :: earlier) = received earlier := by
  cases event <;> first | exact quiet.elim | rfl

theorem sent_quiet (event : Event) (earlier : List Event) (quiet : event.Quiet) :
    sent (event :: earlier) = sent earlier := by
  cases event <;> first | exact quiet.elim | rfl

namespace SessionState

variable {session before after last : SessionState}

/-! ## Staying on a connection -/

/-- Only steady events have happened in between. -/
def Steady (before after : SessionState) : Prop :=
  ∃ events, after.trace = events ++ before.trace ∧ ∀ event ∈ events, event.Steady

namespace Steady

theorem of_trace (same : after.trace = before.trace) : Steady before after :=
  ⟨[], same, fun _ none => by cases none⟩

theorem cons (event : Event) (steady : event.Steady) (same : after.trace = event :: before.trace) :
    Steady before after := by
  refine ⟨[event], same, ?_⟩
  intro other otherMem
  rw [List.mem_singleton.mp otherMem]
  exact steady

theorem trans (first : Steady before after) (second : Steady after last) : Steady before last := by
  rcases first with ⟨eventsFirst, traceFirst, steadyFirst⟩
  rcases second with ⟨eventsSecond, traceSecond, steadySecond⟩
  refine ⟨eventsSecond ++ eventsFirst, ?_, ?_⟩
  · rw [traceSecond, traceFirst, List.append_assoc]
  · intro event eventMem
    rcases List.mem_append.mp eventMem with eventMem | eventMem
    · exact steadySecond event eventMem
    · exact steadyFirst event eventMem

/-- A steady session stays in or out of the pool. -/
theorem issued_eq (steady : Steady before after) : issued after.trace = issued before.trace := by
  rcases steady with ⟨events, trace, steadyEvents⟩
  rw [trace, read_append issued issued_steady steadyEvents]

/-- A steady session stays on its connection. -/
theorem connections_eq (steady : Steady before after) :
    connections after.trace = connections before.trace := by
  rcases steady with ⟨events, trace, steadyEvents⟩
  rw [trace, read_append connections connections_steady steadyEvents]

end Steady

/-! ## Leaving the bytes alone -/

/-- The buffers are the same, no window is new, and only quiet events have happened. -/
structure Quiet (before after : SessionState) : Prop where
  recvBuffer : after.mRecvBuffer = before.mRecvBuffer
  sendBuffer : after.mSendBuffer = before.mSendBuffer
  windows : ∀ context ∈ after.inFlight,
    context.mIoType = .ioRecv ∨ context.mIoType = .ioSend → context ∈ before.inFlight
  trace : ∃ events, after.trace = events ++ before.trace ∧ ∀ event ∈ events, event.Quiet

namespace Quiet

theorem refl (session : SessionState) : Quiet session session :=
  ⟨rfl, rfl, fun _ contextMem _ => contextMem, [], rfl, fun _ none => by cases none⟩

theorem trans (first : Quiet before after) (second : Quiet after last) : Quiet before last := by
  rcases first with ⟨recvFirst, sendFirst, windowsFirst, eventsFirst, traceFirst, quietFirst⟩
  rcases second with ⟨recvSecond, sendSecond, windowsSecond, eventsSecond, traceSecond, quietSecond⟩
  refine ⟨recvSecond.trans recvFirst, sendSecond.trans sendFirst, ?_, eventsSecond ++ eventsFirst,
    ?_, ?_⟩
  · intro context contextMem kind
    exact windowsFirst context (windowsSecond context contextMem kind) kind
  · rw [traceSecond, traceFirst, List.append_assoc]
  · intro event eventMem
    rcases List.mem_append.mp eventMem with eventMem | eventMem
    · exact quietSecond event eventMem
    · exact quietFirst event eventMem

theorem steady (quiet : Quiet before after) : Steady before after := by
  rcases quiet.trace with ⟨events, trace, quietEvents⟩
  refine ⟨events, trace, ?_⟩
  intro event eventMem
  exact (quietEvents event eventMem).steady

/-- What is quiet receives nothing. -/
theorem received_eq (quiet : Quiet before after) :
    received after.trace = received before.trace := by
  rcases quiet.trace with ⟨events, trace, quietEvents⟩
  rw [trace, read_append received received_quiet quietEvents]

/-- What is quiet sends nothing. -/
theorem sent_eq (quiet : Quiet before after) : sent after.trace = sent before.trace := by
  rcases quiet.trace with ⟨events, trace, quietEvents⟩
  rw [trace, read_append sent sent_quiet quietEvents]

theorem record {event : Event} (quiet : event.Quiet) (session : SessionState) :
    Quiet session (session.record event) := by
  refine ⟨rfl, rfl, fun _ contextMem _ => contextMem, [event], rfl, ?_⟩
  intro other otherMem
  rw [List.mem_singleton.mp otherMem]
  exact quiet

theorem abandon (context : OverlappedIOContext) (session : SessionState) :
    Quiet session (session.abandon context) := by
  refine ⟨rfl, rfl, fun _ contextMem _ => contextMem,
    [.contextDeleted context.address, .contextCreated context.address context.mIoType], rfl, ?_⟩
  intro event eventMem
  simp only [List.mem_cons, List.not_mem_nil, or_false] at eventMem
  rcases eventMem with rfl | rfl <;> trivial

theorem post {context : OverlappedIOContext} (notRecv : context.mIoType ≠ .ioRecv)
    (notSend : context.mIoType ≠ .ioSend) (session : SessionState) :
    Quiet session (session.post context) := by
  refine ⟨rfl, rfl, ?_, [.contextCreated context.address context.mIoType], rfl, ?_⟩
  · intro other otherMem kind
    rcases List.mem_append.mp otherMem with otherMem | otherMem
    · exact otherMem
    · rw [List.mem_singleton.mp otherMem] at kind
      rcases kind with kind | kind
      · exact absurd kind notRecv
      · exact absurd kind notSend
  · intro event eventMem
    rw [List.mem_singleton.mp eventMem]
    trivial

theorem attempt {context : OverlappedIOContext} (notRecv : context.mIoType ≠ .ioRecv)
    (notSend : context.mIoType ≠ .ioSend) (accepted : Bool) (session : SessionState) :
    Quiet session (session.attempt accepted context) := by
  cases accepted
  · exact abandon context session
  · exact post notRecv notSend session

theorem attempt_fresh {mIoType : IOType} (notRecv : mIoType ≠ .ioRecv)
    (notSend : mIoType ≠ .ioSend) (accepted : Bool) (mWsaBuf : WsaBuf) (dr : DisconnectReason)
    (posted : List UInt8) (source session : SessionState) :
    Quiet session (session.attempt accepted (source.fresh mIoType mWsaBuf dr posted)) :=
  attempt notRecv notSend accepted session

theorem attach (session : SessionState) : Quiet session { session with attached := true } :=
  ⟨rfl, rfl, fun _ contextMem _ => contextMem, [], rfl, fun _ none => by cases none⟩

theorem mConnected (connected : Bool) (session : SessionState) :
    Quiet session { session with mConnected := connected } :=
  ⟨rfl, rfl, fun _ contextMem _ => contextMem, [], rfl, fun _ none => by cases none⟩

/-- Closing leaves the bytes alone. -/
theorem disconnect (dr : DisconnectReason) (winsock : Winsock) (session : SessionState) :
    Quiet session (session.disconnect dr winsock) := by
  simp only [SessionState.disconnect]
  split
  · exact refl session
  · have closed := mConnected false session
    split
    · apply closed.trans
      apply attempt_fresh <;> simp
    · apply closed.trans
      refine (attempt_fresh ?_ ?_ _ _ _ _ _ _).trans (record ?_ _)
      · simp
      · simp
      · trivial

/-- A receive of no bytes has no window. -/
theorem preReceive (winsock : Winsock) (session : SessionState) :
    Quiet session (session.preReceive winsock).2 := by
  simp only [SessionState.preReceive]
  split
  · exact refl session
  · apply attempt_fresh <;> simp

theorem accepted (winsock : Winsock) (session : SessionState) :
    Quiet session (session.accepted winsock) := by
  have connected := mConnected true session
  simp only [SessionState.accepted]
  split
  · have attached := connected.trans (attach _)
    split
    · exact attached.trans (preReceive ..)
    · refine attached.trans ((preReceive ..).trans (record ?_ _))
      trivial
  · exact connected.trans (disconnect ..)

theorem close (winsock : Winsock) (result : Bool × SessionState) :
    Quiet result.2 (SessionState.close winsock result) := by
  simp only [SessionState.close]
  split
  · exact refl _
  · exact disconnect ..

theorem disconnected (session : SessionState) : Quiet session session.disconnected := by
  refine ⟨rfl, rfl, fun _ contextMem _ => contextMem, [.disconnectCompleted], rfl, ?_⟩
  intro event eventMem
  rw [List.mem_singleton.mp eventMem]
  trivial

theorem drop (context : OverlappedIOContext) (session : SessionState) :
    Quiet session (session.drop context) := by
  refine ⟨rfl, rfl, fun _ contextMem _ => contextMem, [.contextDeleted context.address], rfl, ?_⟩
  intro event eventMem
  rw [List.mem_singleton.mp eventMem]
  trivial

/-- The session returned to the pool, before its last context is deleted. -/
theorem recycle (context : OverlappedIOContext) (session : SessionState) :
    Quiet (session.sessionReset.record (.returned session.sessionReset.toSession))
      (session.recycle context) := by
  refine ⟨rfl, rfl, fun _ contextMem _ => contextMem, [.contextDeleted context.address], rfl, ?_⟩
  intro event eventMem
  rw [List.mem_singleton.mp eventMem]
  trivial

/-- A session is issued with the buffers it has. -/
theorem issue (winsock : Winsock) (session : SessionState) :
    Quiet (session.record .issued) (session.issue winsock) := by
  have taken : Quiet (session.record .issued)
      { session.record .issued with mRefCount := session.mRefCount + 1 } :=
    ⟨rfl, rfl, fun _ contextMem _ => contextMem, [], rfl, fun _ none => by cases none⟩
  simp only [SessionState.issue]
  apply taken.trans
  split
  · apply attempt_fresh <;> simp
  · refine (attempt_fresh ?_ ?_ _ _ _ _ _ _).trans (record ?_ _)
    · simp
    · simp
    · trivial

/-- A context comes back without bytes for the receive buffer. -/
theorem dequeue {context : OverlappedIOContext} {completion : Completion}
    (reports : completion.Reports context) (notArrives : ¬Arrives context completion)
    (session : SessionState) : Quiet session (session.dequeue context completion) := by
  refine ⟨?_, rfl, fun _ contextMem _ => List.mem_of_mem_erase contextMem, [], rfl,
    fun _ none => by cases none⟩
  simp only [SessionState.dequeue]
  split
  · next kind success _ =>
      have nothing : completion.dwTransferred = 0 := by
        by_contra some
        exact notArrives ⟨kind, by simp [success, some]⟩
      have data := reports.2 kind
      rw [nothing] at data
      rw [List.length_eq_zero_iff.mp data, Region.write_nil]
  · rfl

end Quiet

end SessionState

end Gsp.Homework5
