import Gsp.Homework5.Reached

/-!
# References and the pool

The reference count of a client session is exact, no assertion fails on one, and
the pool hands out each session to one connection at a time.
-/

namespace Gsp.Homework5

namespace SessionState

variable {session : SessionState}

/-- What the reference count stands for. -/
structure Counted (session : SessionState) : Prop where
  references : session.mRefCount = issueRef session.trace + session.live.length
  createdOnce : (created session.trace).Nodup
  deletedOnce : (created session.trace).Perm
    (deleted session.trace ++ session.live.map OverlappedIOContext.address)
  connected : session.mConnected = true → issueRef session.trace = 1
  oneDisconnect : disconnectsMade session.trace ≤ 1
  oneReturn : returnsMade session.trace ≤ 1

/-- A settled session has made at most one disconnect. -/
theorem disconnectsMade_le (settled : session.Settled) : disconnectsMade session.trace ≤ 1 := by
  have closing := settled.balanced.closing
  have flags := settled.balanced.flags
  have roles := settled.balanced.roles
  simp only [account] at closing flags roles
  omega

end SessionState

namespace Server

variable {workers : ℕ} {server : Server workers}

/-- In every reachable state the references of a client session are exact, what is
handled is handled by a worker, and no assertion can fail on the session. -/
theorem counted_of_reachable (reachable : (machine workers).Reachable server) (client : ClientId) :
    (server.session (.client client)).Counted ∧
    (∀ context ∈ (server.session (.client client)).handled,
      ∃ worker, (server.worker worker).job.working = some (.client client, context)) ∧
    ∀ action crashAssert, server.step action ≠ .error (.crash (.client client) crashAssert) := by
  have safe := safe_of_reachable reachable
  have settled := safe.settled client
  have tracked := tracked_of_reachable reachable client
  have returns := returns_of_reachable reachable client
  refine ⟨?_, safe.handled client, ?_⟩
  · constructor
    · exact SessionState.references_eq settled.balanced
    · exact tracked.once
    · exact tracked.whereabouts
    · exact SessionState.issueRef_of_connected settled
    · exact SessionState.disconnectsMade_le settled
    · exact returns.once
  · intro action crashAssert step
    rcases safe.stop_of_step step with impossible | ⟨index, _, impossible⟩
    · cases impossible
    · cases impossible

/-- Served, returned and issued once more, with the next accepting context in flight. -/
theorem counted_of_reachable_reissued : ∃ server : Server 1,
    connections (server.session (.client firstClient)).trace = 2 ∧
      (server.session (.client firstClient)).mRefCount = 2 ∧
      (server.session (.client firstClient)).Counted := by
  have passed : passes (fun server : Server 1 =>
      connections (server.session (.client firstClient)).trace = 2 ∧
        (server.session (.client firstClient)).mRefCount = 2)
      ((Server.start 1 ⟨fun _ _ => 0, fun _ _ => 0⟩).runs
        (serving 0 ++ [.acceptClientSession .succeeding])) = true := by
    decide +kernel
  rcases exists_of_passes passed with ⟨server, reachable, checked⟩
  rcases of_decide_eq_true checked with ⟨twice, references⟩
  exact ⟨server, twice, references, (counted_of_reachable reachable firstClient).1⟩

/-- The pool and the two counters of the manager. -/
theorem pool_of_reachable (reachable : (machine workers).Reachable server) :
    server.manager.mFreeSessionList.Nodup ∧
    (∀ client, client ∈ server.manager.mFreeSessionList ↔
      issued (server.session (.client client)).trace = false) ∧
    server.manager.mCurrentReturnCount ≤ server.manager.mCurrentIssueCount ∧
    server.manager.mFreeSessionList.length +
      (server.manager.mCurrentIssueCount - server.manager.mCurrentReturnCount) = maxConnection ∧
    (Word.sub64 server.manager.mCurrentIssueCount server.manager.mCurrentReturnCount <
      maxConnection → server.manager.mFreeSessionList ≠ []) ∧
    (∀ action, server.step action ≠ .error .emptyFreeList) ∧
    ∀ action after client, server.step action = .ok after →
      connections (after.session (.client client)).trace ≠
        connections (server.session (.client client)).trace →
      issued (server.session (.client client)).trace = false := by
  have safe := safe_of_reachable reachable
  have count := safe.count
  have length_le := safe.length_le
  refine ⟨safe.freeOnce, safe.free, by omega, by omega, ?_, ?_, ?_⟩
  · intro guard empty
    rw [safe.guard_eq, empty, List.length_nil] at guard
    omega
  · intro action step
    rcases safe.stop_of_step step with impossible | ⟨index, _, impossible⟩
    · cases impossible
    · cases impossible
  · intro action after client step begun
    rcases turn_of_change safe (safe.change_of_step step) client with same | turn
    · rw [same] at begun
      exact absurd rfl begun
    · rcases SessionState.connections_turn turn with same | ⟨free, _⟩
      · exact absurd same begun
      · exact free

/-- Taken from the pool a second time, after one return. -/
theorem pool_of_reachable_reissued : ∃ server : Server 1,
    connections (server.session (.client firstClient)).trace = 2 ∧
      server.manager.mCurrentReturnCount = 1 ∧
      firstClient ∉ server.manager.mFreeSessionList := by
  have passed : passes (fun server : Server 1 =>
      issued (server.session (.client firstClient)).trace = true ∧
        connections (server.session (.client firstClient)).trace = 2 ∧
        server.manager.mCurrentReturnCount = 1)
      ((Server.start 1 ⟨fun _ _ => 0, fun _ _ => 0⟩).runs
        (serving 0 ++ [.acceptClientSession .succeeding])) = true := by
    decide +kernel
  rcases exists_of_passes passed with ⟨server, reachable, checked⟩
  rcases of_decide_eq_true checked with ⟨isIssued, twice, once⟩
  refine ⟨server, twice, once, ?_⟩
  rw [(pool_of_reachable reachable).2.1, isIssued]
  simp

end Server

end Gsp.Homework5
