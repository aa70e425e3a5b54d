import Gsp.CircularBuffer.Refinement
import Gsp.Homework5.Reached

/-!
# Requests for aggregated sends

Any thread with a send list may post bytes on a connected session. `PostSend`
puts the session on the list once; `FlushSend` sends one region of the buffer and
takes one entry off. A session always has at least as many entries as regions
with bytes that are not being sent, so that no accepted byte is forgotten.
-/

namespace Gsp.Homework5

namespace SessionState

/-- The sends handed to Winsock. -/
def sends (session : SessionState) : List OverlappedIOContext :=
  session.inFlight.filter (·.mIoType = .ioSend)

/-- The offset of the send buffer lies in the window of a send in flight. -/
def Covers (session : SessionState) (offset : ℕ) : Prop :=
  ∃ context ∈ session.sends, ∃ start, context.mWsaBuf.buf = some start ∧
    start ≤ offset ∧ offset < start + context.mWsaBuf.len

/-- Nothing has been posted since the session was constructed or reset. -/
structure Unposted (id : SessionId) (session : SessionState) : Prop where
  wellFormed : session.mSendBuffer.WellFormed
  capacity : session.mSendBuffer.mCapacity = bufSize id
  empty : session.mSendBuffer.contents = []
  pending : session.mSendPendingCount = 0
  unsent : session.sends = []

end SessionState

/-- The calls that fill a send buffer, flush it or take bytes out. -/
inductive SendAction (workers : ℕ) where
  | postSend (worker : Fin workers) (session : SessionId) (data : List UInt8)
  | doSendJob (worker : Fin workers) (winsock : Winsock)
  | sendCompletion (session : SessionId) (context : OverlappedIOContext) (winsock : Winsock)

namespace Server

variable {workers : ℕ}

/-- A `PostSend` that returns `true`. -/
def postSend (index : Fin workers) (self : SessionId) (data : List UInt8)
    (server : Server workers) : Except Stop (Server workers) :=
  let worker := server.worker index
  match (server.session self).postSend self data worker.LSendRequestSessionList with
  | (true, queue, session) =>
      .ok ((server.leave ⟨self, session, server.manager⟩).setWorker index
        { worker with LSendRequestSessionList := queue })
  | (false, _, _) => .error .notEnabled

/-- `DoIocpJob` on a send that has transferred all its bytes. -/
def sendCompletion (self : SessionId) (context : OverlappedIOContext) (winsock : Winsock)
    (server : Server workers) : Except Stop (Server workers) :=
  let completion : Completion := ⟨true, context.mWsaBuf.len, []⟩
  if context ∈ (server.session self).sends then do
    let scope := (server.scope self).update (.dequeue context completion)
    let (_, scope) ← asserting self (scope.doIocpJob context completion winsock)
    .ok (server.leave scope)
  else .error .notEnabled

/-- The effect of a step. -/
def sendStep (server : Server workers) : SendAction workers → Except Stop (Server workers)
  | .postSend worker self data => server.postSend worker self data
  | .doSendJob worker winsock => server.doSendJob worker winsock
  | .sendCompletion self context winsock => server.sendCompletion self context winsock

end Server

/-- The sending side of the server, started with any sessions connected. -/
def sendMachine (workers : ℕ) : Machine (Server workers) (SendAction workers) where
  Initial server := (∀ self, (server.session self).Unposted self) ∧
    ∀ worker, server.worker worker = ⟨[], .idle⟩
  Step before action after := before.sendStep action = .ok after

/-! ## What the functions do -/

namespace SessionScope

open SessionState

variable {self : SessionId} {session : SessionState} {manager : ClientSessionManager}
  {context : OverlappedIOContext} {scope after : SessionScope}

/-- A closed session stays closed when it is released. -/
theorem releaseRef_closed (closed : scope.session.mConnected = false)
    (released : scope.releaseRef = .ok after) :
    after.self = scope.self ∧ after.session.mConnected = false := by
  rcases scope with ⟨self, session, manager⟩
  simp only [releaseRef, update_mk] at released
  split at released
  · cases released
  · split at released
    · cases self with
      | client client =>
          simp only [onRelease, returnClientSession] at released
          split at released
          · cases released
            exact ⟨rfl, rfl⟩
          · cases released
      | server index =>
          cases released
          exact ⟨rfl, closed⟩
    · cases released
      exact ⟨rfl, closed⟩

/-- Deleting a context does not connect a session. -/
theorem deleteIoContext_closed (closed : scope.session.mConnected = false)
    (removed : scope.deleteIoContext context = .ok after) :
    after.self = scope.self ∧ after.session.mConnected = false := by
  rcases Except.bind_eq_ok.mp removed with ⟨released, release, rest⟩
  split at rest
  · cases rest
  · cases rest
    rcases releaseRef_closed closed release with ⟨same, still⟩
    exact ⟨same, still⟩

/-- After `DisconnectRequest` the session is closed. -/
theorem disconnectRequest_closed {dr : DisconnectReason} {winsock : Winsock}
    (requested : scope.disconnectRequest dr winsock = .ok after) :
    after.self = scope.self ∧ after.session.mConnected = false := by
  rcases scope with ⟨self, session, manager⟩
  simp only [disconnectRequest] at requested
  split at requested
  · next closed =>
      cases requested
      exact ⟨rfl, closed⟩
  · simp only [update_mk] at requested
    rcases Except.bind_eq_ok.mp requested with ⟨⟨context, made⟩, creation, rest⟩
    rcases (newContext_ok creation).2 with ⟨mRefCount, rfl⟩
    split at rest
    · cases rest
      exact ⟨rfl, rfl⟩
    · rcases Except.bind_eq_ok.mp rest with ⟨removed, removal, rest⟩
      cases rest
      rcases deleteIoContext_closed (by rfl) removal with ⟨same, still⟩
      exact ⟨same, still⟩

/-- What `FlushSend` does to a connected session. -/
theorem flushSend_ok {winsock : Winsock} {flushed : Bool} (connected : session.mConnected = true)
    (result : flushSend winsock ⟨self, session, manager⟩ = .ok (flushed, scope)) :
    scope.self = self ∧
      (scope.session.mConnected = false ∨
        (scope.session = session ∧
          (flushed = false ∨ session.mSendBuffer.getContiguiousBytes = 0)) ∨
        (session.mSendBuffer.getContiguiousBytes ≠ 0 ∧ session.mSendPendingCount ≤ 0 ∧
          scope.session.mSendBuffer = session.mSendBuffer ∧
          scope.session.mSendPendingCount = session.mSendPendingCount + 1 ∧
          scope.session.inFlight = session.inFlight ++
            [session.fresh .ioSend session.sendWindow .drNone session.mSendBuffer.peek])) := by
  simp only [flushSend, connected, Bool.true_eq_false, if_false] at result
  split at result
  · next nothing =>
      cases result
      exact ⟨rfl, Or.inr (Or.inl ⟨rfl, Or.inr nothing⟩)⟩
  · next something =>
      split at result
      · cases result
        exact ⟨rfl, Or.inr (Or.inl ⟨rfl, Or.inl rfl⟩)⟩
      · next idle =>
          rcases Except.bind_eq_ok.mp result with ⟨⟨sendContext, made⟩, creation, rest⟩
          rcases newContext_ok creation with ⟨rfl, mRefCount, rfl⟩
          split at rest
          · cases rest
            exact ⟨rfl, Or.inr (Or.inr ⟨something, Int.not_lt.mp idle, rfl, rfl, rfl⟩)⟩
          · rcases Except.bind_eq_ok.mp rest with ⟨removed, removal, rest⟩
            rcases Except.bind_eq_ok.mp rest with ⟨requested, request, rest⟩
            rcases deleteIoContext_ok (by exact Or.inl connected) removal with ⟨_, gone⟩
            rcases disconnectRequest_closed request with ⟨same, closed⟩
            rw [gone] at same
            cases rest
            exact ⟨same, Or.inl closed⟩

/-- `FlushSend` does not connect a session. -/
theorem flushSend_closed {winsock : Winsock} {flushed : Bool}
    (closed : session.mConnected = false)
    (result : flushSend winsock ⟨self, session, manager⟩ = .ok (flushed, scope)) :
    scope.self = self ∧ scope.session.mConnected = false := by
  simp only [flushSend, closed, if_true] at result
  rcases Except.bind_eq_ok.mp result with ⟨requested, request, rest⟩
  cases rest
  exact disconnectRequest_closed request

/-- The completion of a send of a connected session that has transferred all. -/
theorem doIocpJob_send {winsock : Winsock} {job : Job} (kind : context.mIoType = .ioSend)
    (some : context.mWsaBuf.len ≠ 0) (connected : session.mConnected = true)
    (result : doIocpJob context ⟨true, context.mWsaBuf.len, []⟩ winsock
      ⟨self, session.dequeue context ⟨true, context.mWsaBuf.len, []⟩, manager⟩ =
        .ok (job, scope)) :
    scope.self = self ∧
      scope.session.mSendBuffer = session.mSendBuffer.remove context.mWsaBuf.len ∧
      scope.session.mSendPendingCount = session.mSendPendingCount - 1 ∧
      scope.session.inFlight = session.inFlight.erase context := by
  simp only [doIocpJob, Bool.true_eq_false, some, or_self, false_and, if_false, kind, closeJob,
    decide_true, if_true, update_mk] at result
  rcases Except.bind_eq_ok.mp result with ⟨removed, removal, rest⟩
  rcases deleteIoContext_ok (by exact Or.inl connected) removal with ⟨_, gone⟩
  cases rest
  rw [gone]
  exact ⟨rfl, rfl, rfl, rfl⟩

/-- Handling a send does not connect a session. -/
theorem doIocpJob_closed {winsock : Winsock} {job : Job} {completion : Completion}
    (kind : context.mIoType = .ioSend) (closed : session.mConnected = false)
    (result : doIocpJob context completion winsock ⟨self, session, manager⟩ = .ok (job, scope)) :
    scope.self = self ∧ scope.session.mConnected = false := by
  have ends {before removed : SessionScope} {dr : DisconnectReason}
      (still : before.session.mConnected = false)
      (ended : (do
        let scope ← before.disconnectRequest dr winsock
        scope.deleteIoContext context) = .ok removed) :
      removed.self = before.self ∧ removed.session.mConnected = false := by
    rcases Except.bind_eq_ok.mp ended with ⟨requested, request, removal⟩
    rcases disconnectRequest_closed request with ⟨same, requestedClosed⟩
    rcases deleteIoContext_closed requestedClosed removal with ⟨sameRemoved, removedClosed⟩
    exact ⟨sameRemoved.trans same, removedClosed⟩
  simp only [doIocpJob, kind, or_true, and_true] at result
  split at result
  · rcases Except.bind_eq_ok.mp result with ⟨removed, removal, rest⟩
    simp only [failJob, kind, if_true] at removal
    rcases ends (by exact closed) removal with ⟨same, removedClosed⟩
    cases rest
    exact ⟨same, removedClosed⟩
  · rcases Except.bind_eq_ok.mp result with ⟨removed, removal, rest⟩
    cases rest
    simp only [closeJob] at removal
    split at removal
    · rcases deleteIoContext_closed (by exact closed) removal with ⟨same, removedClosed⟩
      exact ⟨same, removedClosed⟩
    · rcases ends (by exact closed) removal with ⟨same, removedClosed⟩
      exact ⟨same, removedClosed⟩

end SessionScope

/-! ## Entries and regions -/

namespace SessionState

variable {self : SessionId} {session after : SessionState} {entries : ℕ}

/-- How many of two regions hold bytes behind the first `covered`. -/
def uncovered (covered sizeA sizeB : ℕ) : ℕ :=
  (if covered < sizeA then 1 else 0) + if 0 < sizeB then 1 else 0

theorem uncovered_longerA (covered sizeA sizeB more : ℕ) :
    uncovered covered (sizeA + more) sizeB ≤ uncovered covered sizeA sizeB + 1 := by
  simp only [uncovered]
  split_ifs <;> omega

theorem uncovered_longerB (covered sizeA sizeB more : ℕ) :
    uncovered covered sizeA (sizeB + more) ≤ uncovered covered sizeA sizeB + 1 := by
  simp only [uncovered]
  split_ifs <;> omega

/-- Sending region A. -/
theorem uncovered_send {sizeA : ℕ} (some : sizeA ≠ 0) (sizeB : ℕ) :
    uncovered sizeA sizeA sizeB = uncovered 0 sizeA sizeB - 1 := by
  simp only [uncovered]
  split_ifs <;> omega

/-- What was being sent in front of region A is removed. -/
theorem uncovered_drop {covered sizeA : ℕ} (less : covered < sizeA) (sizeB : ℕ) :
    uncovered 0 (sizeA - covered) sizeB = uncovered covered sizeA sizeB := by
  simp only [uncovered]
  split_ifs <;> omega

/-- Region B takes the place of region A. -/
theorem uncovered_switch (sizeA sizeB : ℕ) : uncovered 0 sizeB 0 = uncovered sizeA sizeA sizeB := by
  simp [uncovered]

/-- How many bytes are being sent. -/
def covered (session : SessionState) : ℕ :=
  (session.sends.map fun context => context.mWsaBuf.len).sum

/-- How many regions hold bytes that are not being sent. -/
def owed (session : SessionState) : ℕ :=
  uncovered session.covered session.mSendBuffer.mARegionSize session.mSendBuffer.mBRegionSize

/-- At most one send, of bytes in front of region A, and an entry for each region
with bytes that are not being sent. -/
structure Backed (id : SessionId) (entries : ℕ) (session : SessionState) : Prop where
  wellFormed : session.mSendBuffer.WellFormed
  capacity : session.mSendBuffer.mCapacity = bufSize id
  pending : session.mSendPendingCount = session.sends.length
  single : session.sends.length ≤ 1
  window : ∀ context ∈ session.sends,
    context.mWsaBuf.buf = some session.mSendBuffer.mARegionPointer ∧
      context.mWsaBuf.len ≠ 0 ∧ context.mWsaBuf.len ≤ session.mSendBuffer.mARegionSize
  enough : session.owed ≤ entries

theorem sends_append {context : OverlappedIOContext} (kind : context.mIoType = .ioSend)
    (appended : after.inFlight = session.inFlight ++ [context]) :
    after.sends = session.sends ++ [context] := by
  simp [sends, appended, kind]

theorem sends_erase {context : OverlappedIOContext}
    (erased : after.inFlight = session.inFlight.erase context) :
    after.sends = session.sends.erase context := by
  rw [sends, erased, sends, List.erase_filter]

/-- With nothing posted there is nothing to back. -/
theorem backed_of_unposted (unposted : session.Unposted self) (entries : ℕ) :
    session.Backed self entries where
  wellFormed := unposted.wellFormed
  capacity := unposted.capacity
  pending := by simp [unposted.pending, unposted.unsent]
  single := by simp [unposted.unsent]
  window := by simp [unposted.unsent]
  enough := by
    have emptyA := unposted.wellFormed.contents_eq_nil_iff.mp unposted.empty
    have closed := (unposted.wellFormed.emptyA emptyA).2
    have emptyB := unposted.wellFormed.withoutB closed
    simp [owed, uncovered, emptyA, emptyB]

/-- `PostSend` leaves an entry for the bytes that it stores. -/
theorem backed_postSend (backed : session.Backed self entries) {data : List UInt8}
    (fits : data.length ≤ session.mSendBuffer.getFreeSpaceSize.1) :
    { session with mSendBuffer :=
      (session.mSendBuffer.getFreeSpaceSize.2.store data).commit data.length }.Backed self
        (entries + 1) := by
  rcases session.mSendBuffer.regions_getFreeSpaceSize with ⟨sameStart, sameA, sameB⟩
  rcases session.mSendBuffer.getFreeSpaceSize.2.regions_store_commit data data.length with
    ⟨start, regions⟩
  rw [sameStart] at start
  rw [sameA, sameB] at regions
  constructor
  · exact backed.wellFormed.getFreeSpaceSize.store_commit
      backed.wellFormed.offered_getFreeSpaceSize fits
  · simp only [CircularBuffer.capacity_commit, CircularBuffer.capacity_store,
      CircularBuffer.capacity_getFreeSpaceSize]
    exact backed.capacity
  · exact backed.pending
  · exact backed.single
  · intro context contextMem
    rcases backed.window context contextMem with ⟨buf, some, le⟩
    refine ⟨?_, some, ?_⟩
    · rw [start]
      exact buf
    · simp only
      omega
  · have enough := backed.enough
    simp only [owed, covered, sends] at enough ⊢
    rcases regions with ⟨longer, same⟩ | ⟨same, longer⟩
    · rw [longer, same]
      exact (uncovered_longerA ..).trans (Nat.add_le_add_right enough 1)
    · rw [longer, same]
      exact (uncovered_longerB ..).trans (Nat.add_le_add_right enough 1)

/-- More entries back a session as well. -/
theorem Backed.mono {more : ℕ} (backed : session.Backed self entries) (le : entries ≤ more) :
    session.Backed self more :=
  { backed with enough := backed.enough.trans le }

/-- A buffer with nothing to send needs no entry. -/
theorem Backed.of_nothing (backed : session.Backed self entries)
    (nothing : session.mSendBuffer.getContiguiousBytes = 0) (fewer : ℕ) :
    session.Backed self fewer := by
  have emptyA := backed.wellFormed.getContiguiousBytes_eq.symm.trans nothing
  have closed := (backed.wellFormed.emptyA emptyA).2
  have emptyB := backed.wellFormed.withoutB closed
  have none : session.owed = 0 := by simp [owed, uncovered, emptyA, emptyB]
  exact { backed with enough := none.trans_le (Nat.zero_le fewer) }

theorem sends_nil_of_idle (backed : session.Backed self entries)
    (idle : session.mSendPendingCount ≤ 0) : session.sends = [] := by
  have pending := backed.pending
  apply List.length_eq_zero_iff.mp
  omega

/-- A flush takes one region; its entry may go. -/
theorem backed_flush (backed : session.Backed self entries)
    (something : session.mSendBuffer.getContiguiousBytes ≠ 0)
    (idle : session.mSendPendingCount ≤ 0)
    (sameBuffer : after.mSendBuffer = session.mSendBuffer)
    (pending : after.mSendPendingCount = session.mSendPendingCount + 1)
    (inFlight : after.inFlight = session.inFlight ++
      [session.fresh .ioSend session.sendWindow .drNone session.mSendBuffer.peek]) :
    after.Backed self (entries - 1) := by
  have none := sends_nil_of_idle backed idle
  have sends := sends_append rfl inFlight
  rw [none, List.nil_append] at sends
  have contiguous := backed.wellFormed.getContiguiousBytes_eq
  have regionA := backed.wellFormed.regionA
  have capacity := backed.capacity
  have small : bufSize self < 2 ^ 32 := by
    cases self <;> simp only [bufSize] <;> decide
  have len : session.sendWindow.len = session.mSendBuffer.mARegionSize := by
    simp only [sendWindow, contiguous]
    exact Word.toUInt32_eq (by omega)
  have buf : session.sendWindow.buf = some session.mSendBuffer.mARegionPointer := by
    have positive : 0 < session.mSendBuffer.mARegionSize := by omega
    simp only [sendWindow, CircularBuffer.getBufferStart, if_pos positive]
  constructor
  · rw [sameBuffer]
    exact backed.wellFormed
  · rw [sameBuffer]
    exact backed.capacity
  · have wasPending := backed.pending
    rw [none, List.length_nil] at wasPending
    rw [pending, sends, List.length_singleton]
    omega
  · rw [sends, List.length_singleton]
  · intro context contextMem
    rw [sends] at contextMem
    rw [List.mem_singleton.mp contextMem, sameBuffer]
    refine ⟨buf, ?_, ?_⟩
    · simp only [fresh, len]
      omega
    · simp only [fresh, len]
      exact le_rfl
  · have enough := backed.enough
    simp only [owed, covered, none, sends, sameBuffer, fresh, len, List.map_nil, List.sum_nil,
      List.map_cons, List.sum_cons, Nat.add_zero] at enough ⊢
    rw [contiguous] at something
    rw [uncovered_send something]
    exact Nat.sub_le_sub_right enough 1

/-- A backed session has one send in flight at most. -/
theorem sends_eq_singleton (backed : session.Backed self entries)
    {context : OverlappedIOContext} (contextMem : context ∈ session.sends) :
    session.sends = [context] := by
  have single := backed.single
  match eq : session.sends with
  | [] =>
      rw [eq] at contextMem
      cases contextMem
  | [only] =>
      rw [eq] at contextMem
      rw [List.mem_singleton.mp contextMem]
  | _ :: _ :: _ =>
      rw [eq] at single
      simp at single

/-- A completed send frees the region it was sent from; region B takes its place. -/
theorem backed_sendCompletion (backed : session.Backed self entries)
    {context : OverlappedIOContext} (contextMem : context ∈ session.sends)
    (removed : after.mSendBuffer = session.mSendBuffer.remove context.mWsaBuf.len)
    (pending : after.mSendPendingCount = session.mSendPendingCount - 1)
    (inFlight : after.inFlight = session.inFlight.erase context) : after.Backed self entries := by
  have only := sends_eq_singleton backed contextMem
  have sends := sends_erase inFlight
  rw [only, List.erase_cons_head] at sends
  rcases backed.window context contextMem with ⟨_, _, le⟩
  have wasPending := backed.pending
  rw [only, List.length_singleton] at wasPending
  constructor
  · rw [removed]
    exact backed.wellFormed.remove _
  · rw [removed, CircularBuffer.capacity_remove]
    exact backed.capacity
  · rw [pending, wasPending, sends]
    rfl
  · rw [sends]
    exact Nat.zero_le 1
  · rw [sends]
    intro other otherMem
    cases otherMem
  · have enough := backed.enough
    have now : after.covered = 0 := by rw [covered, sends, List.map_nil, List.sum_nil]
    have before : session.covered = context.mWsaBuf.len := by
      rw [covered, only, List.map_cons, List.map_nil, List.sum_cons, List.sum_nil, Nat.add_zero]
    rw [owed, before] at enough
    rw [owed, now, removed]
    rcases Nat.lt_or_eq_of_le le with less | all
    · rw [CircularBuffer.WellFormed.remove_of_lt less]
      exact (uncovered_drop less _).trans_le enough
    · rcases backed.wellFormed.regions_remove_regionA with ⟨sizeA, sizeB⟩
      rw [all] at enough ⊢
      rw [sizeA, sizeB]
      exact (uncovered_switch _ _).trans_le enough

end SessionState

/-! ## Every run -/

namespace Server

open SessionState SessionScope

variable {workers : ℕ} {server after : Server workers}

/-- How often the workers have the session in their lists. -/
def entries (server : Server workers) (self : SessionId) : ℕ :=
  ∑ worker, tally SendRequest.session (server.worker worker).LSendRequestSessionList self

theorem entries_setWorker (index : Fin workers) (worker : Worker) (self : SessionId) :
    (server.setWorker index worker).entries self +
        tally SendRequest.session (server.worker index).LSendRequestSessionList self =
      server.entries self + tally SendRequest.session worker.LSendRequestSessionList self :=
  Tally.sum_update
    (fun worker : Worker => tally SendRequest.session worker.LSendRequestSessionList self)
    server.worker index worker

/-- Every connected session is backed by the entries it has. -/
def AllBacked (server : Server workers) : Prop :=
  ∀ self, (server.session self).mConnected = true →
    (server.session self).Backed self (server.entries self)

/-- A function has run on one session. -/
theorem allBacked_leave (backed : server.AllBacked) {scope : SessionScope}
    (now : scope.session.mConnected = true →
      scope.session.Backed scope.self (server.entries scope.self)) :
    (server.leave scope).AllBacked := by
  intro self
  by_cases same : self = scope.self
  · subst same
    simp only [leave, Function.update_self]
    exact now
  · simp only [leave, Function.update_of_ne same]
    exact backed self

/-- A worker has run a function on one session and changed its list. -/
theorem allBacked_requeue (backed : server.AllBacked) {scope : SessionScope} {index : Fin workers}
    {worker : Worker}
    (others : ∀ self, self ≠ scope.self →
      tally SendRequest.session worker.LSendRequestSessionList self =
        tally SendRequest.session (server.worker index).LSendRequestSessionList self)
    (now : ∀ entries, entries +
        tally SendRequest.session (server.worker index).LSendRequestSessionList scope.self =
          server.entries scope.self +
            tally SendRequest.session worker.LSendRequestSessionList scope.self →
      scope.session.mConnected = true → scope.session.Backed scope.self entries) :
    ((server.leave scope).setWorker index worker).AllBacked := by
  intro self
  have counts := @entries_setWorker _ (server.leave scope) index worker self
  by_cases same : self = scope.self
  · subst same
    simp only [setWorker, leave, Function.update_self]
    exact now _ counts
  · have unchanged : ((server.leave scope).setWorker index worker).entries self =
        server.entries self := by
      rw [others self same] at counts
      exact Nat.add_right_cancel counts
    rw [unchanged]
    simp only [setWorker, leave, Function.update_of_ne same]
    exact backed self

/-- What `PostSend` has done when it returns true. -/
theorem postSend_ok {ran : SessionId} {data : List UInt8} {queue posted : List SendRequest}
    {session changed : SessionState}
    (result : session.postSend ran data queue = (true, posted, changed)) :
    session.mConnected = true ∧ data.length ≤ session.mSendBuffer.getFreeSpaceSize.1 ∧
      posted = queue ++ [⟨ran, connections session.trace⟩] ∧
      changed = { session with mSendBuffer :=
        (session.mSendBuffer.getFreeSpaceSize.2.store data).commit data.length } := by
  simp only [SessionState.postSend] at result
  split at result
  · cases result
  · next connected =>
      split at result
      · cases result
      · next fits =>
          cases result
          exact ⟨by simpa using connected, Nat.not_lt.mp fits, rfl, rfl⟩

/-- `PostSend` keeps every session backed. -/
theorem allBacked_postSend (backed : server.AllBacked) {index : Fin workers} {ran : SessionId}
    {data : List UInt8} (posted : server.postSend index ran data = .ok after) :
    after.AllBacked := by
  simp only [Server.postSend] at posted
  split at posted
  · next queue session result =>
      rcases postSend_ok result with ⟨connected, fits, rfl, rfl⟩
      cases posted
      apply allBacked_requeue backed
      · intro self ne
        simp only [Tally.tally_append, Tally.tally_cons, Tally.tally_nil, if_neg (Ne.symm ne)]
        rfl
      · intro entries counts _
        have more : entries = server.entries ran + 1 := by
          simp only [Tally.tally_append, Tally.tally_cons, Tally.tally_nil, if_true] at counts
          omega
        rw [more]
        exact backed_postSend (backed ran connected) fits
  · cases posted

/-- `DoSendJob` keeps every session backed. -/
theorem allBacked_doSendJob (backed : server.AllBacked) {index : Fin workers} {winsock : Winsock}
    (sent : server.doSendJob index winsock = .ok after) : after.AllBacked := by
  simp only [Server.doSendJob] at sent
  split at sent
  · next request rest idle front =>
      rcases Except.bind_eq_ok.mp sent with ⟨⟨flushed, scope⟩, result, left⟩
      have flush := asserting_eq_ok.mp result
      have same : scope.self = request.session := by
        cases connected : (server.session request.session).mConnected
        · exact (flushSend_closed connected flush).1
        · exact (flushSend_ok connected flush).1
      cases left
      apply allBacked_requeue backed
      · intro self ne
        rw [same] at ne
        rw [front, Tally.tally_cons, if_neg (Ne.symm ne)]
        cases flushed
        · simp only [Bool.false_eq_true, if_false, Tally.tally_cons, if_neg (Ne.symm ne)]
        · rfl
      · intro entries counts stillConnected
        rw [front, same] at counts
        rw [same]
        cases connected : (server.session request.session).mConnected
        · have closed := (flushSend_closed connected flush).2
          rw [closed] at stillConnected
          cases stillConnected
        · have wasBacked := backed request.session connected
          have enough : server.entries request.session - 1 ≤ entries := by
            cases flushed
            · simp only [Bool.false_eq_true, if_false] at counts
              omega
            · simp only [if_true, Tally.tally_cons] at counts
              omega
          rcases (flushSend_ok connected flush).2 with
            closed | ⟨unchanged, refused | nothing⟩ | ⟨something, none, buffer, pending, inFlight⟩
          · rw [closed] at stillConnected
            cases stillConnected
          · rw [unchanged]
            apply wasBacked.mono
            rw [refused] at counts
            simp only [Bool.false_eq_true, if_false] at counts
            omega
          · rw [unchanged]
            exact wasBacked.of_nothing nothing entries
          · exact (backed_flush wasBacked something none buffer pending inFlight).mono enough
  · cases sent

/-- A completed send keeps every session backed. -/
theorem allBacked_sendCompletion (backed : server.AllBacked) {ran : SessionId}
    {context : OverlappedIOContext} {winsock : Winsock}
    (completed : server.sendCompletion ran context winsock = .ok after) : after.AllBacked := by
  simp only [Server.sendCompletion] at completed
  split at completed
  · next contextMem =>
      rcases Except.bind_eq_ok.mp completed with ⟨⟨job, scope⟩, result, left⟩
      have handled := asserting_eq_ok.mp result
      have kind : context.mIoType = .ioSend := by
        simpa using (List.mem_filter.mp contextMem).2
      cases left
      apply allBacked_leave backed
      intro stillConnected
      cases connected : (server.session ran).mConnected
      · have closed := (doIocpJob_closed kind (by exact connected) handled).2
        rw [closed] at stillConnected
        cases stillConnected
      · have wasBacked := backed ran connected
        rcases wasBacked.window context contextMem with ⟨_, some, _⟩
        rcases doIocpJob_send kind some connected handled with ⟨same, removed, pending, inFlight⟩
        rw [same]
        exact backed_sendCompletion wasBacked contextMem removed pending inFlight
  · cases completed

/-- In every reachable server every session is backed. -/
theorem allBacked_of_reachable (reachable : (sendMachine workers).Reachable server) :
    server.AllBacked := by
  apply reachable.invariant
  · rintro first ⟨unposted, _⟩ self _
    exact backed_of_unposted (unposted self) _
  · intro before action after _ backed step
    cases action with
    | postSend worker self data => exact allBacked_postSend backed step
    | doSendJob worker winsock => exact allBacked_doSendJob backed step
    | sendCompletion self context winsock => exact allBacked_sendCompletion backed step

/-- A stored byte that no send covers is owed a send. -/
theorem owed_of_uncovered {self : SessionId} {session : SessionState} {entries : ℕ}
    (backed : session.Backed self entries) {offset : ℕ}
    (stored : session.mSendBuffer.Stored offset) (notCovered : ¬session.Covers offset) :
    0 < session.owed := by
  rcases stored with ⟨behind, inside⟩ | ⟨pointer, _, behind, inside⟩
  · have less : session.covered < session.mSendBuffer.mARegionSize := by
      cases sending : session.sends with
      | nil =>
          rw [covered, sending, List.map_nil, List.sum_nil]
          omega
      | cons context others =>
          have contextMem : context ∈ session.sends := by
            rw [sending]
            exact List.mem_cons_self
          rcases backed.window context contextMem with ⟨buf, _, le⟩
          have only := sends_eq_singleton backed contextMem
          by_contra all
          rw [covered, only, List.map_cons, List.map_nil, List.sum_cons, List.sum_nil] at all
          apply notCovered
          exact ⟨context, contextMem, _, buf, behind, by omega⟩
    rw [owed, uncovered, if_pos less]
    omega
  · have some : 0 < session.mSendBuffer.mBRegionSize := by omega
    rw [owed, uncovered, if_pos some]
    omega

/-- Stored bytes that are not being sent belong to a session that is queued. -/
theorem queued_of_uncovered (reachable : (sendMachine workers).Reachable server)
    {self : SessionId} (connected : (server.session self).mConnected = true) {offset : ℕ}
    (stored : (server.session self).mSendBuffer.Stored offset)
    (notCovered : ¬(server.session self).Covers offset) :
    ∃ worker, ∃ request ∈ (server.worker worker).LSendRequestSessionList,
      request.session = self := by
  have backed := allBacked_of_reachable reachable self connected
  have positive : 0 < server.entries self :=
    (owed_of_uncovered backed stored notCovered).trans_le backed.enough
  rcases Finset.exists_ne_zero_of_sum_ne_zero positive.ne' with ⟨worker, _, some⟩
  exact ⟨worker, Tally.exists_of_tally_pos (Nat.pos_of_ne_zero some)⟩

/-- Two workers and all sessions connected, each with the reference of a receive. -/
def connectedServer : Server 2 where
  session self :=
    { Session.construct (fun _ => 0) (fun _ => 0) (bufSize self) with
      mRefCount := 2
      mConnected := true
      attached := true
      inFlight := []
      handled := []
      trace := [] }
  manager := ⟨[], 0, 0⟩
  worker _ := ⟨[], .idle⟩

theorem connectedServer_initial : (sendMachine 2).Initial connectedServer := by
  refine ⟨?_, fun _ => rfl⟩
  intro self
  have size : bufSize self < 2 ^ 64 := by
    cases self <;> simp only [bufSize] <;> decide
  exact ⟨.construct _ size, rfl, CircularBuffer.contents_construct .., rfl, rfl⟩

/-- The first two bytes are being sent, and a third is stored behind them. -/
def sendsTwoOfThree (server : Server 2) : Bool :=
  let session := server.session (.client firstClient)
  session.mConnected && (session.mSendBuffer.mARegionPointer = 0 : Bool) &&
    (session.mSendBuffer.mARegionSize = 3 : Bool) &&
    (session.sends.map OverlappedIOContext.mWsaBuf = [⟨2, some 0⟩] : Bool)

theorem queued_of_uncovered_third : ∃ server : Server 2,
    (server.session (.client firstClient)).mSendBuffer.Stored 2 ∧
      ¬(server.session (.client firstClient)).Covers 2 ∧
      ∃ worker, ∃ request ∈ (server.worker worker).LSendRequestSessionList,
        request.session = .client firstClient := by
  have passed : passes sendsTwoOfThree (Machine.follow sendStep connectedServer
      [.postSend 0 (.client firstClient) [1, 2], .doSendJob 0 .succeeding,
        .postSend 1 (.client firstClient) [3]]) = true := by
    decide +kernel
  have stepped (before : Server 2) (action : SendAction 2) (after : Server 2)
      (step : before.sendStep action = .ok after) : (sendMachine 2).Step before action after :=
    step
  rcases exists_run_of_follow stepped passed with ⟨server, steps, run, _, sending⟩
  simp only [sendsTwoOfThree, Bool.and_eq_true, decide_eq_true_eq] at sending
  rcases sending with ⟨⟨⟨connected, start⟩, size⟩, windows⟩
  have stored : (server.session (.client firstClient)).mSendBuffer.Stored 2 := by
    left
    omega
  have notCovered : ¬(server.session (.client firstClient)).Covers 2 := by
    rintro ⟨context, contextMem, pointer, buf, _, inside⟩
    have window : context.mWsaBuf ∈ [⟨2, some 0⟩] := by
      rw [← windows]
      exact List.mem_map_of_mem contextMem
    rw [List.mem_singleton] at window
    rw [window] at buf inside
    cases buf
    contradiction
  exact ⟨server, stored, notCovered,
    queued_of_uncovered ⟨_, steps, connectedServer_initial, run⟩ connected stored notCovered⟩

end Server

end Gsp.Homework5
