import Mathlib.Data.Fintype.Card
import Gsp.Homework5.History

/-!
# The invariant of the server

Between two steps every client session is `Kept`, the sessions with other servers
only wait for their connection, a worker inside the `IO_RECV` branch holds the
completed receive of a client session that no other worker works on, and the free
list holds the client sessions that are not issued.
-/

namespace Gsp.Homework5

/-- The completed receive a worker is working on. -/
def Job.working : Job → Option (SessionId × OverlappedIOContext)
  | .idle => none
  | .recvCompleted self context => some (self, context)
  | .echoed self context => some (self, context)

/-- A session with another server never receives or sends. -/
structure SessionState.Outgoing (session : SessionState) : Prop where
  connecting : ∀ context ∈ session.live, context.mIoType = .ioConnect
  recvBuffer : session.mRecvBuffer.contents = []
  sendBuffer : session.mSendBuffer.contents = []
  unreceived : received session.trace = []
  unsent : sent session.trace = []

namespace Server

open SessionState

variable {workers : ℕ} {server : Server workers}

/-- What the workers hold. -/
structure Crew (server : Server workers) : Prop where
  working : ∀ worker self context, (server.worker worker).job.working = some (self, context) →
    context.mIoType = .ioRecv ∧ context ∈ (server.session self).handled ∧
      ∃ client, self = .client client
  handled : ∀ client, ∀ context ∈ (server.session (.client client)).handled,
    ∃ worker, (server.worker worker).job.working = some (.client client, context)
  alone : ∀ worker other self context otherContext,
    (server.worker worker).job.working = some (self, context) →
    (server.worker other).job.working = some (self, otherContext) → worker = other
  queued : ∀ worker, ∀ request ∈ (server.worker worker).LSendRequestSessionList,
    ∃ client, request.session = .client client
  short : ∀ worker, (server.worker worker).LSendRequestSessionList.length ≤ 1
  unqueued : ∀ worker self context, (server.worker worker).job = .recvCompleted self context →
    (server.worker worker).LSendRequestSessionList = []
  own : ∀ worker self context, (server.worker worker).job = .echoed self context →
    ∀ request ∈ (server.worker worker).LSendRequestSessionList, request.session = self

/-- What the pool holds. -/
structure Pool (server : Server workers) : Prop where
  freeOnce : server.manager.mFreeSessionList.Nodup
  free : ∀ client, client ∈ server.manager.mFreeSessionList ↔
    issued (server.session (.client client)).trace = false
  count : server.manager.mFreeSessionList.length + server.manager.mCurrentIssueCount =
    maxConnection + server.manager.mCurrentReturnCount

/-- The invariant. -/
structure Safe (server : Server workers) : Prop extends Crew server, Pool server where
  clients : ∀ client, (server.session (.client client)).Kept
  servers : ∀ index, (server.session (.server index)).Outgoing

namespace Safe

theorem settled (safe : server.Safe) (client : ClientId) :
    (server.session (.client client)).Settled :=
  (safe.clients client).settled

/-- The pool never outgrows `MAX_CONNECTION`. -/
theorem length_le (safe : server.Safe) :
    server.manager.mFreeSessionList.length ≤ maxConnection := by
  have bound := List.Nodup.length_le_card safe.freeOnce
  rwa [Fintype.card_fin] at bound

/-- The guard of the accepting loop compares the true difference. -/
theorem guard_eq (safe : server.Safe) :
    Word.sub64 server.manager.mCurrentIssueCount server.manager.mCurrentReturnCount =
      maxConnection - server.manager.mFreeSessionList.length := by
  have count := safe.count
  have length_le := safe.length_le
  have small : maxConnection < 2 ^ 64 := by decide
  rw [Word.sub64_eq (by omega) (by omega)]
  omega

end Safe

end Server

/-! ## The state at the start -/

section Start

open SessionState

/-- The pool starts with the first `count` sessions. -/
theorem mem_prepareClientSessions {count : ℕ} (le : count ≤ maxConnection) (client : ClientId) :
    client ∈ prepareClientSessions count le ↔ client.val < count := by
  induction count with
  | zero => simp [prepareClientSessions]
  | succ count ih =>
      simp only [prepareClientSessions, List.mem_cons, ih, Fin.ext_iff]
      omega

/-- The pool starts with no session twice. -/
theorem nodup_prepareClientSessions {count : ℕ} (le : count ≤ maxConnection) :
    (prepareClientSessions count le).Nodup := by
  induction count with
  | zero => exact List.nodup_nil
  | succ count ih =>
      refine List.nodup_cons.mpr ⟨?_, ih _⟩
      intro again
      have below := (mem_prepareClientSessions _ _).mp again
      simp only at below
      omega

theorem length_prepareClientSessions {count : ℕ} (le : count ≤ maxConnection) :
    (prepareClientSessions count le).length = count := by
  induction count with
  | zero => rfl
  | succ count ih => simp [prepareClientSessions, ih]

variable (raw : RawMemory)

/-- Every session starts settled. -/
theorem settled_start (workers : ℕ) (self : SessionId) :
    ((Server.start workers raw).session self).Settled := by
  constructor
  · constructor <;> simp [Server.start, account, role, tokens, live, tally, Session.construct,
      issueRef, disconnectsMade, failedSends, issued]
  · intro _ connected
    simp [Server.start, account, Session.construct] at connected

theorem kept_start (workers : ℕ) (client : ClientId) :
    ((Server.start workers raw).session (.client client)).Kept := by
  have size : clientBufSize < 2 ^ 64 := by decide
  refine ⟨settled_start raw workers _, ?_⟩
  constructor
  · exact .construct _ size
  · exact .construct _ size
  · rfl
  · rfl
  · intro context contextMem
    cases contextMem
  · intro context contextMem
    cases contextMem
  · intro isIssued
    cases isIssued
  · intro _
    exact ⟨CircularBuffer.contents_construct .., CircularBuffer.contents_construct ..⟩
  · exact List.prefix_refl _

/-- The server starts safe. -/
theorem safe_start (workers : ℕ) : (Server.start workers raw).Safe where
  clients := kept_start raw workers
  servers index := by
    refine
      ⟨?_, CircularBuffer.contents_construct .., CircularBuffer.contents_construct .., rfl, rfl⟩
    intro context contextMem
    cases contextMem
  working worker self context atWork := by cases atWork
  handled client context contextMem := by cases contextMem
  alone worker other self context otherContext atWork := by cases atWork
  queued worker request requestMem := by cases requestMem
  short worker := Nat.zero_le 1
  unqueued worker self context atWork := by cases atWork
  own worker self context atWork := by cases atWork
  freeOnce := nodup_prepareClientSessions _
  free client := by
    have inside := client.isLt
    simp [Server.start, mem_prepareClientSessions, issued, inside]
  count := by
    simp only [Server.start, length_prepareClientSessions]

end Start

end Gsp.Homework5
