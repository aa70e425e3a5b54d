import Gsp.Homework5.Reached

/-!
# From input to output

On every connection the bytes sent, the send buffer and the receive buffer make
up the bytes received, and the window of a send keeps its bytes until the send
completes.
-/

namespace Gsp.Homework5

namespace SessionState

variable {session : SessionState}

/-- What has been received is what has been sent and what the buffers hold, in that order. -/
structure Relayed (session : SessionState) : Prop where
  total : sent session.trace ++ session.mSendBuffer.contents ++ session.mRecvBuffer.contents =
    received session.trace
  prefixed : sent session.trace <+: received session.trace
  oneSend : tally OverlappedIOContext.mIoType session.inFlight .ioSend ≤ 1
  window : ∀ context ∈ session.inFlight, context.mIoType = .ioSend →
    ∃ start, context.mWsaBuf.buf = some start ∧
      Region.read session.mSendBuffer.mBuffer start context.mWsaBuf.len = context.posted

/-- Kept bytes are relayed. -/
theorem relayed_of_kept (kept : session.Kept) (isIssued : issued session.trace = true) :
    session.Relayed where
  total := kept.echoing.echoed isIssued
  prefixed := kept.echoing.prefixed
  oneSend := (inFlight_tokens_le .ioSend).trans (sends_le kept.settled)
  window context contextMem kind := by
    rcases kept.echoing.sendWindow context contextMem kind with ⟨start, _, posted⟩
    exact ⟨_, start, posted.symm⟩

/-- An outgoing session relays nothing. -/
theorem relayed_of_outgoing (outgoing : session.Outgoing) : session.Relayed where
  total := by
    rw [outgoing.unsent, outgoing.unreceived, outgoing.sendBuffer, outgoing.recvBuffer]
    rfl
  prefixed := by
    rw [outgoing.unsent]
    exact List.nil_prefix
  oneSend := by
    by_contra more
    have positive : 0 < tally OverlappedIOContext.mIoType session.inFlight .ioSend := by omega
    rcases Tally.exists_of_tally_pos positive with ⟨context, contextMem, kind⟩
    rw [outgoing.connecting context (List.mem_append_left _ contextMem)] at kind
    cases kind
  window context contextMem kind := by
    rw [outgoing.connecting context (List.mem_append_left _ contextMem)] at kind
    cases kind

end SessionState

namespace Server

variable {workers : ℕ} {server : Server workers}

/-- Every connection relays its bytes: those of issued client sessions and those
with other servers. The output of a client session is a prefix of its input also
after it has been returned. -/
theorem relayed_of_reachable (reachable : (machine workers).Reachable server) :
    (∀ client, issued (server.session (.client client)).trace = true →
      (server.session (.client client)).Relayed) ∧
    (∀ client, sent (server.session (.client client)).trace <+:
      received (server.session (.client client)).trace) ∧
    ∀ index, (server.session (.server index)).Relayed := by
  have safe := safe_of_reachable reachable
  refine ⟨?_, ?_, ?_⟩
  · intro client isIssued
    exact SessionState.relayed_of_kept (safe.clients client) isIssued
  · intro client
    exact (safe.clients client).echoing.prefixed
  · intro index
    exact SessionState.relayed_of_outgoing (safe.servers index)

/-- One byte has been sent and one more waits behind it. -/
theorem relayed_of_reachable_sent : ∃ server : Server 1,
    sent (server.session (.client firstClient)).trace = [7] ∧
      (server.session (.client firstClient)).Relayed := by
  have passed : passes (fun server : Server 1 =>
      issued (server.session (.client firstClient)).trace &&
        (sent (server.session (.client firstClient)).trace = [7] : Bool))
      ((Server.start 1 ⟨fun _ _ => 0, fun _ _ => 0⟩).runs
        (accepting 0 ++ receiving 0 1 2 7 ++
          [.finishRecv 0 .succeeding, .doSendJob 0 .succeeding,
            .doIocpJob 0 (.client firstClient) ⟨4, .ioSend, ⟨1, some 0⟩, .drNone, [7]⟩
              ⟨true, 1, []⟩ .succeeding] ++ receiving 0 3 5 8)) = true := by
    decide +kernel
  rcases exists_of_passes passed with ⟨server, reachable, checked⟩
  rcases Bool.and_eq_true_iff.mp checked with ⟨isIssued, hasSent⟩
  exact ⟨server, of_decide_eq_true hasSent, (relayed_of_reachable reachable).1 firstClient isIssued⟩

end Server

end Gsp.Homework5
