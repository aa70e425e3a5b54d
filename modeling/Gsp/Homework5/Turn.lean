import Gsp.Homework5.Lifetime

/-!
# What a step does to a client session

`Turn` lists the changes one step of the server can make to a client session.
Every turn keeps the session settled.
-/

namespace Gsp.Homework5

/-- A completion that `DoIocpJob` takes for bytes received. -/
def Arrives (context : OverlappedIOContext) (completion : Completion) : Prop :=
  context.mIoType = .ioRecv ∧ ¬(completion.ret = false ∨ completion.dwTransferred = 0)

/-- What a step may do to a client session. -/
inductive Turn : SessionState → SessionState → Prop where
  | issue {session : SessionState} (winsock : Winsock) (free : issued session.trace = false) :
      Turn session (session.issue winsock)
  | handle {session : SessionState} {context : OverlappedIOContext} {completion : Completion}
      (winsock : Winsock) (inFlight : context ∈ session.inFlight)
      (reports : completion.Reports context) (notArrives : ¬Arrives context completion) :
      Turn session (((session.dequeue context completion).handle context completion
        winsock).discard context)
  | receive {session : SessionState} {context : OverlappedIOContext} {completion : Completion}
      (inFlight : context ∈ session.inFlight) (reports : completion.Reports context)
      (arrives : Arrives context completion) :
      Turn session ((session.dequeue context completion).recvCompletion completion)
  | echo {session : SessionState} {context : OverlappedIOContext} (self : SessionId)
      (queue : List SendRequest) (handled : context ∈ session.handled)
      (kind : context.mIoType = .ioRecv) :
      Turn session (session.echoBack self queue).2
  | finish {session : SessionState} {context : OverlappedIOContext} (winsock : Winsock)
      (handled : context ∈ session.handled) (kind : context.mIoType = .ioRecv) :
      Turn session ((session.finish winsock).discard context)
  | flush {session : SessionState} (winsock : Winsock) :
      Turn session (session.flush winsock).2

namespace SessionState

variable {session : SessionState}

/-- A dequeued completion leaves the session settled. -/
theorem settled_dequeue (settled : session.Settled) {context : OverlappedIOContext}
    (inFlight : context ∈ session.inFlight) (completion : Completion) :
    (session.dequeue context completion).Settled := by
  rcases settled with ⟨balanced, listening⟩
  rw [← account_dequeue inFlight completion] at balanced listening
  exact ⟨balanced, listening⟩

/-- Echoing the received bytes leaves the session settled. -/
theorem settled_echoBack (settled : session.Settled) (self : SessionId)
    (queue : List SendRequest) : (session.echoBack self queue).2.Settled := by
  rcases settled with ⟨balanced, listening⟩
  rcases echoBack_cases self queue session with echo | echo | ⟨_, _, echo⟩ <;> rw [echo] <;>
    exact ⟨balanced, listening⟩

theorem notReceived_of_notArrives {context : OverlappedIOContext} {completion : Completion}
    (notArrives : ¬Arrives context completion) (kind : context.mIoType = .ioRecv) :
    completion.ret = false ∨ completion.dwTransferred = 0 := by
  by_contra arrives
  exact notArrives ⟨kind, arrives⟩

/-- Every turn leaves the session settled. -/
theorem settled_turn {after : SessionState} (settled : session.Settled)
    (turn : Turn session after) : after.Settled := by
  cases turn with
  | issue winsock free => exact issue_settled settled free winsock
  | @handle context completion winsock inFlight _ notArrives =>
      have dequeued := settled_dequeue settled inFlight completion
      rcases handle_settled dequeued List.mem_cons_self winsock
        (notReceived_of_notArrives notArrives) with
        ⟨⟨balanced, listening⟩, handled⟩
      exact discard_settled handled balanced listening
  | @receive context completion inFlight _ _ =>
      rcases settled_dequeue settled inFlight completion with ⟨balanced, listening⟩
      exact ⟨balanced, listening⟩
  | echo self queue handled kind => exact settled_echoBack settled self queue
  | finish winsock handled kind =>
      rcases finish_settled settled handled kind winsock with ⟨⟨balanced, listening⟩, stillHandled⟩
      exact discard_settled stillHandled balanced listening
  | flush winsock => exact flush_settled settled winsock

end SessionState

end Gsp.Homework5
