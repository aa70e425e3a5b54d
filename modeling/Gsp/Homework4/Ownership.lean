import Mathlib.Algebra.Order.BigOperators.Group.Finset
import Gsp.Lib.Tally
import Gsp.Homework4.IocpManager

/-!
# Who owns a session

A session that is not in the free list has at most one baton. It is passed from
the accepting loop to the context in flight, from there to the thread that handles
the completion, and on to the next context; with it go the reference made when the
session was issued and the right to use the buffer. Every context in flight and
every context being handled holds one more reference. The thread that releases the
last reference returns the session.

Batons and references may get lost, when a context is dropped or a call fails; the
count then never comes down to zero again.
-/

namespace Gsp.Homework4

namespace Server

variable {workers : ℕ} {server : Server workers}

@[simp]
theorem session_setSession_self (client : ClientId) (session : ClientSession) :
    (server.setSession client session).session client = session :=
  Function.update_self ..

theorem session_setSession_of_ne {client other : ClientId} (ne : other ≠ client)
    (session : ClientSession) :
    (server.setSession client session).session other = server.session other :=
  Function.update_of_ne ne ..

@[simp]
theorem manager_setSession (client : ClientId) (session : ClientSession) :
    (server.setSession client session).manager = server.manager := rfl

@[simp]
theorem owner_setSession (client : ClientId) (session : ClientSession) :
    (server.setSession client session).owner = server.owner := rfl

@[simp]
theorem owner_setOwner_self (lock : Lock) (owner : Option (Thread workers)) :
    (server.setOwner lock owner).owner lock = owner :=
  Function.update_self ..

theorem owner_setOwner_of_ne {lock other : Lock} (ne : other ≠ lock)
    (owner : Option (Thread workers)) :
    (server.setOwner lock owner).owner other = server.owner other :=
  Function.update_of_ne ne ..

end Server

/-! ## What is in the buffer -/

namespace Stream

/-- Region B is not allocated, and what has been removed is the front of what was received. -/
structure Sound (stream : Stream) : Prop where
  wellFormed : stream.mBuffer.WellFormed
  capacity : stream.mBuffer.mCapacity = bufSize
  closed : stream.mBuffer.mBRegionPointer = none
  prefixed : stream.removed <+: stream.received.flatten

/-- Everything received has been removed again. -/
structure Drained (stream : Stream) : Prop where
  vacant : stream.mBuffer.mARegionSize = 0
  removed : stream.removed = stream.received.flatten

/-- The window of the last receive is filled and not yet committed. -/
structure Arrived (stream : Stream) (len : ℕ) : Prop where
  vacant : stream.mBuffer.mARegionSize = 0
  fits : len ≤ bufSize
  chunk : ∃ earlier chunk, stream.received = earlier ++ [chunk] ∧
    stream.removed = earlier.flatten ∧ chunk.length = len ∧
    Region.read stream.mBuffer.mBuffer 0 len = chunk

/-- The buffer holds the last receive. -/
structure Holding (stream : Stream) : Prop where
  front : stream.mBuffer.mARegionPointer = 0
  some : 0 < stream.mBuffer.mARegionSize
  chunk : ∃ earlier, stream.received = earlier ++ [stream.mBuffer.contents] ∧
    stream.removed = earlier.flatten

end Stream

/-- The buffer is as an operation in flight needs it. -/
def OverlappedIOContext.Ready (context : OverlappedIOContext) (stream : Stream) : Prop :=
  match context.mIoType with
  | .ioAccept | .ioRecvZero => stream.Drained
  | .ioRecv => stream.Drained ∧ context.mWsaBuf = ⟨bufSize, some 0⟩
  | .ioSend => stream.Holding ∧ context.mWsaBuf = ⟨stream.mBuffer.mARegionSize, some 0⟩
  | .ioDisconnect => True
  | .ioNone => False

/-! ## What a thread holds -/

/-- The right to use the buffer, with its contents; `returning` when it comes from
the free list or goes back there. -/
structure Key where
  stream : Stream
  returning : Bool

/-- The locks of a thread, and what it holds of the session it is working on. -/
structure Ghost where
  locks : List Lock
  client : ClientId
  refs : ℕ
  key : Option Key

namespace Ghost

/-- How many keys are held that are not returning. -/
def batons (ghost : Ghost) : ℕ :=
  match ghost.key with
  | none => 0
  | some key => if key.returning then 0 else 1

/-- How many returning keys are held. -/
def returnings (ghost : Ghost) : ℕ :=
  match ghost.key with
  | none => 0
  | some key => if key.returning then 1 else 0

/-- What the thread holds of a given session. -/
def share (held : Ghost → ℕ) (client : ClientId) (ghost : Ghost) : ℕ :=
  if ghost.client = client then held ghost else 0

/-- A ghost shares in its own session. -/
theorem share_self (held : Ghost → ℕ) (ghost : Ghost) :
    ghost.share held ghost.client = held ghost :=
  if_pos rfl

/-- A ghost shares in no other session. -/
theorem share_of_ne (held : Ghost → ℕ) {client : ClientId} {ghost : Ghost}
    (ne : ghost.client ≠ client) : ghost.share held client = 0 :=
  if_neg ne

/-- The key of a session goes with its baton. -/
theorem keys_of_some {ghost : Ghost} {key : Key} (holds : ghost.key = some key) :
    ghost.batons + ghost.returnings = 1 := by
  cases returning : key.returning <;> simp [batons, returnings, holds, returning]

end Ghost

/-- The reference count, the contexts in flight and the places in the free list of a
session, with the references, batons and returning keys that threads hold of it. -/
structure Law (count : ℤ) (flight free refs batons returnings : ℕ) : Prop where
  counted : ((refs + batons + 2 * flight : ℕ) : ℤ) ≤ count
  single : batons + returnings + flight + free ≤ 1
  unused : 0 < returnings + free → count = 0

theorem Law.less {count : ℤ} {flight free refs batons returnings lessRefs lessBatons
    lessReturnings : ℕ} (law : Law count flight free refs batons returnings)
    (fewerRefs : lessRefs ≤ refs) (fewerBatons : lessBatons ≤ batons)
    (fewerReturnings : lessReturnings ≤ returnings) :
    Law count flight free lessRefs lessBatons lessReturnings := by
  rcases law with ⟨counted, single, unused⟩
  constructor
  · push_cast at counted ⊢
    omega
  · omega
  · intro positive
    exact unused (by omega)

/-- The server and what its threads hold agree. -/
structure Guarded {workers : ℕ} (server : Server workers) (ghosts : Thread workers → Ghost) :
    Prop where
  owners : ∀ lock thread, server.owner lock = some thread → lock ∈ (ghosts thread).locks
  law : ∀ client, Law (server.session client).mRefCount (server.session client).inFlight.length
    (server.manager.mFreeSessionList.count client)
    (∑ thread, (ghosts thread).share Ghost.refs client)
    (∑ thread, (ghosts thread).share Ghost.batons client)
    (∑ thread, (ghosts thread).share Ghost.returnings client)
  known : ∀ thread key, (ghosts thread).key = some key →
    key.stream = (server.session (ghosts thread).client).toStream
  ready : ∀ client, ∀ context ∈ (server.session client).inFlight,
    context.mSessionObject = client ∧ context.Ready (server.session client).toStream
  vacant : ∀ client ∈ server.manager.mFreeSessionList,
    (server.session client).mBuffer.mARegionSize = 0
  sound : ∀ client, (server.session client).Sound

namespace Guarded

open Ghost Server

variable {workers : ℕ} {server after : Server workers} {ghosts : Thread workers → Ghost}
  {thread : Thread workers} {ghost next : Ghost}

/-- What the other threads hold of a session. -/
def others (held : Ghost → ℕ) (client : ClientId) (thread : Thread workers)
    (ghosts : Thread workers → Ghost) : ℕ :=
  ∑ other ∈ Finset.univ.erase thread, (ghosts other).share held client

theorem total_eq (held : Ghost → ℕ) (client : ClientId) (thread : Thread workers)
    (ghosts : Thread workers → Ghost) :
    ∑ other, (ghosts other).share held client =
      others held client thread ghosts + (ghosts thread).share held client :=
  (Finset.sum_erase_add _ _ (Finset.mem_univ thread)).symm

/-- What one thread holds does not change what the others do. -/
theorem others_update (held : Ghost → ℕ) (client : ClientId) :
    others held client thread (Function.update ghosts thread next) =
      others held client thread ghosts := by
  apply Finset.sum_congr rfl
  intro other otherMem
  rw [Function.update_of_ne (Finset.ne_of_mem_erase otherMem)]

theorem total_update (held : Ghost → ℕ) (client : ClientId) :
    ∑ other, (Function.update ghosts thread next other).share held client =
      others held client thread ghosts + next.share held client := by
  rw [total_eq held client thread, others_update, Function.update_self]

theorem share_le_others (held : Ghost → ℕ) (client : ClientId) {other : Thread workers}
    (ne : other ≠ thread) :
    (ghosts other).share held client ≤ others held client thread ghosts := by
  have otherMem : other ∈ Finset.univ.erase thread :=
    Finset.mem_erase.mpr ⟨ne, Finset.mem_univ other⟩
  rw [others, ← Finset.add_sum_erase _ _ otherMem]
  exact Nat.le_add_right ..

/-- A thread changes what it holds, and the server changes with it. -/
theorem change (guarded : Guarded server ghosts)
    (owners : ∀ lock other, after.owner lock = some other →
      lock ∈ (Function.update ghosts thread next other).locks)
    (law : ∀ client refs batons returnings,
      Law (server.session client).mRefCount (server.session client).inFlight.length
        (server.manager.mFreeSessionList.count client)
        (refs + (ghosts thread).share Ghost.refs client)
        (batons + (ghosts thread).share Ghost.batons client)
        (returnings + (ghosts thread).share Ghost.returnings client) →
      Law (after.session client).mRefCount (after.session client).inFlight.length
        (after.manager.mFreeSessionList.count client)
        (refs + next.share Ghost.refs client) (batons + next.share Ghost.batons client)
        (returnings + next.share Ghost.returnings client))
    (known : ∀ key, next.key = some key → key.stream = (after.session next.client).toStream)
    (owned : ∀ client, (after.session client).toStream = (server.session client).toStream ∨
      0 < (ghosts thread).share Ghost.batons client +
        (ghosts thread).share Ghost.returnings client +
        (server.session client).inFlight.length + server.manager.mFreeSessionList.count client)
    (ready : ∀ client, ∀ context ∈ (after.session client).inFlight,
      context.mSessionObject = client ∧ context.Ready (after.session client).toStream)
    (vacant : ∀ client ∈ after.manager.mFreeSessionList,
      (after.session client).mBuffer.mARegionSize = 0)
    (sound : ∀ client, (after.session client).Sound) :
    Guarded after (Function.update ghosts thread next) := by
  have before := guarded.law
  simp only [total_eq _ _ thread] at before
  refine ⟨owners, ?_, ?_, ready, vacant, sound⟩
  · intro client
    simp only [total_update]
    exact law client _ _ _ (before client)
  · intro other key holds
    by_cases same : other = thread
    · subst same
      rw [Function.update_self] at holds ⊢
      exact known key holds
    · rw [Function.update_of_ne same] at holds ⊢
      rw [guarded.known other key holds]
      rcases owned (ghosts other).client with unchanged | mine
      · exact unchanged.symm
      · -- two keys of one session
        have single := (before (ghosts other).client).single
        have batons := @share_le_others _ ghosts thread Ghost.batons (ghosts other).client _ same
        have returnings :=
          @share_le_others _ ghosts thread Ghost.returnings (ghosts other).client _ same
        have its := keys_of_some holds
        rw [share_self] at batons returnings
        omega

/-- A thread that keeps its locks. -/
theorem owners_update (guarded : Guarded server ghosts)
    (sameLocks : next.locks = (ghosts thread).locks) (lock : Lock) (other : Thread workers)
    (owner : server.owner lock = some other) :
    lock ∈ (Function.update ghosts thread next other).locks := by
  by_cases same : other = thread
  · subst same
    rw [Function.update_self, sameLocks]
    exact guarded.owners lock other owner
  · rw [Function.update_of_ne same]
    exact guarded.owners lock other owner

/-- A thread works on a session and keeps its locks; what it held of another session is
given up. -/
theorem changeSession (guarded : Guarded server ghosts) {subject : ClientId}
    {session : ClientSession} {manager : SessionManager} (nextClient : next.client = subject)
    (sameLocks : next.locks = (ghosts thread).locks)
    (sameFree : ∀ client ≠ subject, manager.mFreeSessionList.count client =
      server.manager.mFreeSessionList.count client)
    (law : ∀ refs batons returnings,
      Law (server.session subject).mRefCount (server.session subject).inFlight.length
        (server.manager.mFreeSessionList.count subject)
        (refs + (ghosts thread).share Ghost.refs subject)
        (batons + (ghosts thread).share Ghost.batons subject)
        (returnings + (ghosts thread).share Ghost.returnings subject) →
      Law session.mRefCount session.inFlight.length (manager.mFreeSessionList.count subject)
        (refs + next.refs) (batons + next.batons) (returnings + next.returnings))
    (known : ∀ key, next.key = some key → key.stream = session.toStream)
    (owned : session.toStream = (server.session subject).toStream ∨
      0 < (ghosts thread).share Ghost.batons subject +
        (ghosts thread).share Ghost.returnings subject +
        (server.session subject).inFlight.length + server.manager.mFreeSessionList.count subject)
    (ready : ∀ context ∈ session.inFlight,
      context.mSessionObject = subject ∧ context.Ready session.toStream)
    (vacant : subject ∈ manager.mFreeSessionList → session.mBuffer.mARegionSize = 0)
    (sound : session.Sound) :
    Guarded { server.setSession subject session with manager := manager }
      (Function.update ghosts thread next) := by
  subst nextClient
  have here : (server.setSession next.client session).session next.client = session :=
    session_setSession_self ..
  have elsewhere {client : ClientId} (ne : client ≠ next.client) :
      (server.setSession next.client session).session client = server.session client :=
    session_setSession_of_ne ne session
  apply guarded.change
  · exact guarded.owners_update sameLocks
  · intro client refs batons returnings before
    by_cases same : client = next.client
    · subst same
      simp only [here, share_self]
      exact law refs batons returnings before
    · have ne : next.client ≠ client := fun eq => same eq.symm
      simp only [elsewhere same, sameFree client same, share_of_ne _ ne]
      exact before.less (Nat.le_add_right ..) (Nat.le_add_right ..) (Nat.le_add_right ..)
  · intro key holds
    simp only [here]
    exact known key holds
  · intro client
    by_cases same : client = next.client
    · subst same
      simp only [here]
      exact owned
    · simp only [elsewhere same]
      exact Or.inl trivial
  · intro client context contextMem
    by_cases same : client = next.client
    · subst same
      simp only [here] at contextMem ⊢
      exact ready context contextMem
    · simp only [elsewhere same] at contextMem ⊢
      exact guarded.ready client context contextMem
  · intro client clientMem
    by_cases same : client = next.client
    · subst same
      simp only [here]
      exact vacant clientMem
    · simp only [elsewhere same]
      have listed := List.count_pos_iff.mpr clientMem
      rw [sameFree client same] at listed
      exact guarded.vacant client (List.count_pos_iff.mp listed)
  · intro client
    by_cases same : client = next.client
    · subst same
      simp only [here]
      exact sound
    · simp only [elsewhere same]
      exact guarded.sound client

/-- A thread works on its session and keeps its locks. -/
theorem onSession (guarded : Guarded server ghosts) {session : ClientSession}
    (sameClient : next.client = (ghosts thread).client)
    (sameLocks : next.locks = (ghosts thread).locks)
    (law : ∀ free refs batons returnings,
      Law (server.session (ghosts thread).client).mRefCount
        (server.session (ghosts thread).client).inFlight.length free (refs + (ghosts thread).refs)
        (batons + (ghosts thread).batons) (returnings + (ghosts thread).returnings) →
      Law session.mRefCount session.inFlight.length free (refs + next.refs)
        (batons + next.batons) (returnings + next.returnings))
    (known : ∀ key, next.key = some key → key.stream = session.toStream)
    (owned : session.toStream = (server.session (ghosts thread).client).toStream ∨
      0 < (ghosts thread).batons + (ghosts thread).returnings)
    (ready : ∀ context ∈ session.inFlight, context.mSessionObject = (ghosts thread).client ∧
      context.Ready session.toStream)
    (sound : session.Sound) :
    Guarded (server.setSession (ghosts thread).client session)
      (Function.update ghosts thread next) := by
  apply guarded.changeSession sameClient sameLocks
  · intro client _
    rfl
  · intro refs batons returnings before
    simp only [share_self] at before
    exact law _ refs batons returnings before
  · exact known
  · simp only [share_self]
    rcases owned with unchanged | mine
    · exact Or.inl unchanged
    · right
      omega
  · exact ready
  · intro listed
    rcases owned with unchanged | mine
    · rw [unchanged]
      exact guarded.vacant _ listed
    · -- the session is not in the free list
      have single := (guarded.law (ghosts thread).client).single
      have isFree := List.count_pos_iff.mpr listed
      simp only [total_eq _ _ thread, share_self] at single
      omega
  · exact sound

end Guarded

end Gsp.Homework4
