import Gsp.Lib.Machine
import Gsp.DummyClient.Framing

/-!
# Dispatching a packet stream

A connection on which the peer sends a sequence of packets. Each step posts a
receive and completes it with some of the next bytes of the stream, cut anywhere
inside the offered window. `Dispatched` says that the handlers have seen exactly
the packets whose last byte has arrived.

The loop of `OnReceive` sees region A only. A window in region B therefore
brings bytes which this completion does not parse, and the run stays dispatched
exactly when no such window brings the end of a packet.
-/

namespace Gsp.DummyClient

open Gsp.CircularBuffer

/-- The window `PostRecv` offers is the one of the free-space query. -/
theorem DummyClientSession.postRecv_eq {session : DummyClientSession}
    (wellFormed : session.mRecvBuffer.WellFormed)
    (capacity : session.mRecvBuffer.mCapacity = DummyClientSession.clientBufSize)
    (connected : session.mConnected = true) :
    session.postRecv =
      if session.mRecvBuffer.getFreeSpaceSize.1 = 0 then none
      else some ((session.mRecvBuffer.getFreeSpaceSize.1,
          session.mRecvBuffer.getFreeSpaceSize.2.getBuffer),
        { session with mRecvBuffer := session.mRecvBuffer.getFreeSpaceSize.2 }) := by
  have offered := wellFormed.offered_getFreeSpaceSize
  have inside := wellFormed.getFreeSpaceSize.window_inside offered
  have size_eq : session.mRecvBuffer.getFreeSpaceSize.2.mCapacity = 65536 := by
    rw [capacity_getFreeSpaceSize]
    exact capacity
  have again : session.mRecvBuffer.getFreeSpaceSize.2.getFreeSpaceSize =
      (session.mRecvBuffer.getFreeSpaceSize.1, session.mRecvBuffer.getFreeSpaceSize.2) := offered
  have small : session.mRecvBuffer.getFreeSpaceSize.1 < 2 ^ 32 := by omega
  simp only [DummyClientSession.postRecv, connected, Bool.true_eq_false, if_false, again,
    Word.toUInt32_eq small]

/-- One receive after the other, each of `count` bytes. -/
def receiving (packets : List Packet) : Machine DummyClientSession ℕ where
  Initial session := ∃ raw, session = .connected raw
  Step session count after :=
    ∃ len position posted, session.postRecv = some ((len, position), posted) ∧
      0 < count ∧ count ≤ len ∧ session.mRecvTotal + count ≤ (encodeAll packets).length ∧
      after = (posted.deliver position
        (((encodeAll packets).drop session.mRecvTotal).take count)).recvCompletion count

/-- The handlers have been called for the arrived packets, once each and in order. -/
def Dispatched (packets : List Packet) (session : DummyClientSession) : Prop :=
  session.handlerCalls.map HandlerCall.view =
    (arrived packets session.mRecvTotal).map Packet.view

/-- A completion in region B does not bring the end of a packet. -/
def EndsOutsideB (packets : List Packet) (session : DummyClientSession) (count : ℕ) : Prop :=
  session.mRecvBuffer.getFreeSpaceSize.2.mBRegionPointer.isSome →
    arrived packets (session.mRecvTotal + count) = arrived packets session.mRecvTotal

/-- Some of the packets are done and the buffer holds what has arrived of the rest. -/
structure Progress (packets done rest : List Packet) (session : DummyClientSession) : Prop where
  wellFormed : session.mRecvBuffer.WellFormed
  capacity : session.mRecvBuffer.mCapacity = DummyClientSession.clientBufSize
  connected : session.mConnected = true
  split : packets = done ++ rest
  called : session.handlerCalls.map HandlerCall.view = done.map Packet.view
  total : session.mRecvTotal = (encodeAll done).length + session.mRecvBuffer.contents.length
  front : session.mRecvBuffer.contents <+: encodeAll rest

namespace Progress

variable {packets done rest : List Packet} {session : DummyClientSession}

theorem arrived_eq (progress : Progress packets done rest session) :
    arrived packets session.mRecvTotal =
      done ++ arrived rest session.mRecvBuffer.contents.length := by
  rw [progress.split, progress.total, arrived_append]

theorem dispatched_iff (progress : Progress packets done rest session) :
    Dispatched packets session ↔ arrived rest session.mRecvBuffer.contents.length = [] := by
  rw [Dispatched, progress.arrived_eq, progress.called, List.map_append]
  simp

/-- The next bytes of the stream continue the contents of the buffer. -/
theorem next_bytes (progress : Progress packets done rest session) {count : ℕ}
    (inside : session.mRecvTotal + count ≤ (encodeAll packets).length) :
    (((encodeAll packets).drop session.mRecvTotal).take count).length = count ∧
      session.mRecvBuffer.contents ++ ((encodeAll packets).drop session.mRecvTotal).take count <+:
        encodeAll rest := by
  rcases progress.front with ⟨missing, whole⟩
  have stream : encodeAll packets = encodeAll done ++ session.mRecvBuffer.contents ++ missing := by
    rw [progress.split, encodeAll_append, ← whole, List.append_assoc]
  have behind : (encodeAll packets).drop session.mRecvTotal = missing := by
    rw [stream, progress.total, ← List.length_append, List.drop_left]
  have enough : count ≤ missing.length := by
    rw [stream, List.length_append, List.length_append, ← progress.total] at inside
    omega
  rw [behind, ← whole, List.prefix_append_right_inj]
  exact ⟨List.length_take_of_le enough, List.take_prefix count missing⟩

/-- The window `PostRecv` offers is the one of the free-space query. -/
theorem postRecv_eq (progress : Progress packets done rest session) :
    session.postRecv =
      if session.mRecvBuffer.getFreeSpaceSize.1 = 0 then none
      else some ((session.mRecvBuffer.getFreeSpaceSize.1,
          session.mRecvBuffer.getFreeSpaceSize.2.getBuffer),
        { session with mRecvBuffer := session.mRecvBuffer.getFreeSpaceSize.2 }) :=
  DummyClientSession.postRecv_eq progress.wellFormed progress.capacity progress.connected

/-- Any part of the stream that fits the window can be received next. -/
theorem exists_step (progress : Progress packets done rest session) {count : ℕ}
    (positive : 0 < count) (fits : count ≤ session.mRecvBuffer.getFreeSpaceSize.1)
    (inside : session.mRecvTotal + count ≤ (encodeAll packets).length) :
    ∃ after, (receiving packets).Step session count after := by
  have free : session.mRecvBuffer.getFreeSpaceSize.1 ≠ 0 := by omega
  have posted := progress.postRecv_eq
  rw [if_neg free] at posted
  exact ⟨_, _, _, _, posted, positive, fits, inside, rfl⟩

/-- The buffer when the bytes of a completion have been committed. -/
def committed (session : DummyClientSession) (bytes : List UInt8) : CircularBuffer :=
  (session.mRecvBuffer.getFreeSpaceSize.2.store bytes).commit bytes.length

theorem wellFormed_committed (progress : Progress packets done rest session) {bytes : List UInt8}
    (fits : bytes.length ≤ session.mRecvBuffer.getFreeSpaceSize.1) :
    (committed session bytes).WellFormed :=
  progress.wellFormed.getFreeSpaceSize.store_commit
    progress.wellFormed.offered_getFreeSpaceSize fits

theorem contents_committed (progress : Progress packets done rest session) {bytes : List UInt8}
    (fits : bytes.length ≤ session.mRecvBuffer.getFreeSpaceSize.1) :
    (committed session bytes).contents = session.mRecvBuffer.contents ++ bytes := by
  have kept := progress.wellFormed.contents_getFreeSpaceSize
  have appended := progress.wellFormed.getFreeSpaceSize.contents_store_commit
    progress.wellFormed.offered_getFreeSpaceSize fits
  rwa [kept] at appended

/-- The handlers see the packets that are complete in region A, which go out of
the buffer with their bytes. -/
theorem onReceive_committed (progress : Progress packets done rest session) {bytes : List UInt8}
    (fits : bytes.length ≤ session.mRecvBuffer.getFreeSpaceSize.1)
    (front : session.mRecvBuffer.contents ++ bytes <+: encodeAll rest) :
    ∃ calls : List HandlerCall,
      calls.map HandlerCall.view =
        (arrived rest (committed session bytes).mARegionSize).map Packet.view ∧
      { session with mRecvBuffer := committed session bytes }.onReceive =
        { session with
          mRecvBuffer := (committed session bytes).remove
            (encodeAll (arrived rest (committed session bytes).mARegionSize)).length
          handlerCalls := session.handlerCalls ++ calls } := by
  have wellFormed := progress.wellFormed_committed fits
  rw [← progress.contents_committed fits] at front
  apply DummyClientSession.onReceiveLoop_eq rest
    { session with mRecvBuffer := committed session bytes } wellFormed
  · refine ⟨wellFormed.getContiguiousBytes_eq, fun nonempty => ?_⟩
    exact ⟨(committed session bytes).mARegionPointer, by simp [getBufferStart, nonempty], rfl⟩
  · exact (List.prefix_append _ _).trans front

/-- What a completed receive leaves behind. -/
theorem step_eq (progress : Progress packets done rest session) {count : ℕ}
    {after : DummyClientSession} (step : (receiving packets).Step session count after) :
    ∃ (bytes : List UInt8) (calls : List HandlerCall),
      bytes.length = count ∧ count ≤ session.mRecvBuffer.getFreeSpaceSize.1 ∧
      session.mRecvBuffer.contents ++ bytes <+: encodeAll rest ∧
      calls.map HandlerCall.view =
        (arrived rest (committed session bytes).mARegionSize).map Packet.view ∧
      after =
        { session with
          mRecvBuffer := (committed session bytes).remove
            (encodeAll (arrived rest (committed session bytes).mARegionSize)).length
          mRecvTotal := session.mRecvTotal + count
          handlerCalls := session.handlerCalls ++ calls } := by
  rcases step with ⟨len, position, posted, postRecv, _, count_le, inside, rfl⟩
  rw [progress.postRecv_eq, Option.ite_none_left_eq_some, Option.some.injEq, Prod.mk.injEq,
    Prod.mk.injEq] at postRecv
  rcases postRecv with ⟨_, ⟨rfl, rfl⟩, rfl⟩
  rcases progress.next_bytes inside with ⟨length_eq, front⟩
  have fits := count_le
  rw [← length_eq] at fits
  rcases progress.onReceive_committed fits front with ⟨calls, views, received⟩
  refine ⟨_, calls, length_eq, count_le, front, views, ?_⟩
  simp only [committed, length_eq, store] at received ⊢
  simp only [DummyClientSession.recvCompletion, DummyClientSession.deliver, received]

theorem step (progress : Progress packets done rest session) {count : ℕ}
    {after : DummyClientSession} (step : (receiving packets).Step session count after) :
    ∃ done rest, Progress packets done rest after := by
  rcases progress.step_eq step with ⟨bytes, calls, length_eq, fits, front, views, rfl⟩
  rw [← length_eq] at fits
  have wellFormed := progress.wellFormed_committed fits
  have contents_eq := progress.contents_committed fits
  rcases arrived_split rest (committed session bytes).mARegionSize with
    ⟨later, split, complete, _⟩
  have encoded : encodeAll rest =
      encodeAll (arrived rest (committed session bytes).mARegionSize) ++ encodeAll later := by
    rw [← encodeAll_append, ← split]
  rw [← contents_eq, encoded] at front
  have removedFront : encodeAll (arrived rest (committed session bytes).mARegionSize) <+:
      (committed session bytes).contents := by
    apply List.prefix_of_prefix_length_le (List.prefix_append _ _) front
    rw [contents, List.length_append, length_bytesA]
    exact complete.trans (Nat.le_add_right _ _)
  rcases removedFront with ⟨left, whole⟩
  rw [← whole, List.prefix_append_right_inj] at front
  have left_eq : ((committed session bytes).remove (encodeAll
      (arrived rest (committed session bytes).mARegionSize)).length).contents = left := by
    rw [wellFormed.contents_remove, ← whole, List.drop_left]
  refine ⟨done ++ arrived rest (committed session bytes).mARegionSize, later, ?_⟩
  constructor
  · exact wellFormed.remove _
  · simpa only [capacity_remove, committed, capacity_commit, capacity_store,
      capacity_getFreeSpaceSize] using progress.capacity
  · exact progress.connected
  · rw [List.append_assoc, ← split]
    exact progress.split
  · simp only [List.map_append, progress.called, views]
  · have lengths := congrArg List.length (whole.trans contents_eq)
    simp only [left_eq, progress.total, encodeAll_append, List.length_append] at lengths ⊢
    omega
  · rwa [left_eq]

/-- Region A after a completion: as before when the window was in region B, all
that is stored otherwise. -/
theorem regionA_committed (progress : Progress packets done rest session) {bytes : List UInt8}
    (fits : bytes.length ≤ session.mRecvBuffer.getFreeSpaceSize.1) :
    (session.mRecvBuffer.getFreeSpaceSize.2.mBRegionPointer.isSome = true ∧
      (committed session bytes).mARegionSize ≤ session.mRecvBuffer.contents.length) ∨
    (session.mRecvBuffer.getFreeSpaceSize.2.mBRegionPointer.isSome = false ∧
      (committed session bytes).mARegionSize =
        (session.mRecvBuffer.contents ++ bytes).length) := by
  cases window : session.mRecvBuffer.getFreeSpaceSize.2.mBRegionPointer.isSome with
  | true =>
      left
      refine ⟨rfl, ?_⟩
      have kept := progress.wellFormed.contents_getFreeSpaceSize
      rw [← kept, contents, List.length_append, length_bytesA]
      simp only [committed, commit, store, window, if_true]
      exact Nat.le_add_right _ _
  | false =>
      right
      refine ⟨rfl, ?_⟩
      have closed : (committed session bytes).mBRegionPointer = none := by
        simp only [committed, commit, store, window, Bool.false_eq_true, if_false]
        simpa only [Option.isSome_eq_false_iff, Option.isNone_iff_eq_none] using window
      have unused := (progress.wellFormed_committed fits).withoutB closed
      rw [← progress.contents_committed fits, (progress.wellFormed_committed fits).length_contents,
        getStoredSize, unused, Nat.add_zero]

/-- A step keeps the session dispatched exactly when no packet ends in region B. -/
theorem dispatched_step (progress : Progress packets done rest session) {count : ℕ}
    {after : DummyClientSession} (dispatched : Dispatched packets session)
    (step : (receiving packets).Step session count after) :
    Dispatched packets after ↔ EndsOutsideB packets session count := by
  have waiting := progress.dispatched_iff.mp dispatched
  rcases progress.step_eq step with ⟨bytes, calls, length_eq, fits, front, views, rfl⟩
  rw [← length_eq] at fits
  have arrivedAfter : arrived packets (session.mRecvTotal + count) =
      done ++ arrived rest (session.mRecvBuffer.contents ++ bytes).length := by
    rw [progress.total, ← length_eq, Nat.add_assoc, ← List.length_append, ← arrived_append,
      ← progress.split]
  have dispatched_after : Dispatched packets
      { session with
        mRecvBuffer := (committed session bytes).remove
          (encodeAll (arrived rest (committed session bytes).mARegionSize)).length
        mRecvTotal := session.mRecvTotal + count
        handlerCalls := session.handlerCalls ++ calls } ↔
      (arrived rest (committed session bytes).mARegionSize).map Packet.view =
        (arrived rest (session.mRecvBuffer.contents ++ bytes).length).map Packet.view := by
    simp only [Dispatched, arrivedAfter, List.map_append, progress.called, views,
      List.append_cancel_left_eq]
  rw [dispatched_after, EndsOutsideB, arrivedAfter, progress.arrived_eq, waiting]
  rcases progress.regionA_committed fits with ⟨window, size_le⟩ | ⟨window, size_eq⟩
  · rw [arrived_eq_nil_of_le size_le waiting]
    simp only [window, List.map_nil, List.append_nil, forall_const, List.append_right_eq_self]
    rw [eq_comm, List.map_eq_nil_iff]
  · simp only [window, size_eq, Bool.false_eq_true, IsEmpty.forall_iff]

end Progress

/-- The first connection state. -/
theorem progress_connected (packets : List Packet) (raw : ℕ → UInt8) :
    Progress packets [] packets (.connected raw) where
  wellFormed := WellFormed.construct raw (by decide)
  capacity := rfl
  connected := rfl
  split := rfl
  called := rfl
  total := by simp [DummyClientSession.connected]
  front := by simp [DummyClientSession.connected]

theorem progress_of_reachable {packets : List Packet} {session : DummyClientSession}
    (reachable : (receiving packets).Reachable session) :
    ∃ done rest, Progress packets done rest session := by
  apply reachable.invariant
  · rintro first ⟨raw, rfl⟩
    exact ⟨[], packets, progress_connected packets raw⟩
  · rintro before count after _ ⟨done, rest, progress⟩ step
    exact progress.step step

/-- All sessions of a run are dispatched exactly when no completion of the run
brings the end of a packet into region B. -/
theorem dispatched_iff_endsOutsideB {packets : List Packet} {first last : DummyClientSession}
    {steps : List (DummyClientSession × ℕ)} (initial : (receiving packets).Initial first)
    (run : (receiving packets).Run first steps last) :
    (∀ session ∈ Machine.visited steps last, Dispatched packets session) ↔
      ∀ step ∈ steps, EndsOutsideB packets step.1 step.2 := by
  apply run.good_iff_fine initial
  · rcases initial with ⟨raw, rfl⟩
    simp [Dispatched, DummyClientSession.connected, arrived_of_short]
  · intro before count after reachable dispatched step
    rcases progress_of_reachable reachable with ⟨done, rest, progress⟩
    exact progress.dispatched_step dispatched step

/-! ## A packet that ends in region B -/

/-- A packet of the largest size. -/
def longPacket : Packet where
  mType := 1
  payload := List.replicate 32767 0
  type_pos := by decide
  type_lt := by decide
  size_le := List.length_replicate.le

/-- A packet without payload. -/
def emptyPacket : Packet where
  mType := 1
  payload := []
  type_pos := by decide
  type_lt := by decide
  size_le := Nat.zero_le _

theorem length_longPacket : longPacket.encode.length = 32771 := by
  have payload : longPacket.payload.length = 32767 := List.length_replicate
  rw [Packet.length_encode, payload, headerSize]

theorem length_emptyPacket : emptyPacket.encode.length = 4 := by
  rw [Packet.length_encode, headerSize, emptyPacket, List.length_nil]

/-- The buffer after whole packets and some bytes of the next. -/
theorem step_more {packets : List Packet} {count extra : ℕ} {second : DummyClientSession}
    (whole : (encodeAll (arrived packets (count + extra))).length = count) (positive : 0 < extra)
    (step : (receiving packets).Step (.connected fun _ => 0) (count + extra) second) :
    second.mRecvBuffer.mARegionPointer = count ∧ second.mRecvBuffer.mARegionSize = extra ∧
      second.mRecvBuffer.mBRegionPointer = none ∧ second.mRecvTotal = count + extra := by
  have wide : (DummyClientSession.connected fun _ => 0).mRecvBuffer.getFreeSpaceSize =
      (65536, .construct (fun _ => 0) 65536) := by rfl
  have start := progress_connected packets fun _ => 0
  rcases start.step_eq step with ⟨bytes, calls, length_eq, _, _, _, rfl⟩
  have committed_eq : (Progress.committed (.connected fun _ => 0) bytes).mARegionPointer = 0 ∧
      (Progress.committed (.connected fun _ => 0) bytes).mARegionSize = count + extra ∧
      (Progress.committed (.connected fun _ => 0) bytes).mBRegionPointer = none := by
    simp [Progress.committed, wide, commit, store, construct, length_eq]
  rcases committed_eq with ⟨pointerA, sizeA, withoutB⟩
  have less : count < (Progress.committed (.connected fun _ => 0) bytes).mARegionSize := by omega
  have removed := WellFormed.remove_of_lt less
  have total : (DummyClientSession.connected fun _ => 0).mRecvTotal = 0 := rfl
  simp [sizeA, whole, removed, pointerA, withoutB, total]

/-- The next receive goes to region B when there is more room in front of region A. -/
theorem window_more {packets : List Packet} {count extra : ℕ} {second : DummyClientSession}
    (whole : (encodeAll (arrived packets (count + extra))).length = count) (positive : 0 < extra)
    (step : (receiving packets).Step (.connected fun _ => 0) (count + extra) second) :
    second.mRecvBuffer.getFreeSpaceSize =
      if 65536 < 2 * count + extra then (count, second.mRecvBuffer.allocateB)
      else (65536 - count - extra, second.mRecvBuffer) := by
  rcases step_more whole positive step with ⟨pointerA, sizeA, withoutB, _⟩
  have reachable : (receiving packets).Reachable (.connected fun _ => 0) := .ofInitial ⟨_, rfl⟩
  rcases progress_of_reachable (reachable.step step) with ⟨done, rest, progress⟩
  have capacity := progress.capacity
  rw [DummyClientSession.clientBufSize] at capacity
  have inside := progress.wellFormed.regionA
  rcases progress.wellFormed.getFreeSpaceSize_cases with
    ⟨withB, _⟩ | ⟨_, _, narrow, window⟩ | ⟨_, wideEnough, window⟩
  · rw [withoutB] at withB
    cases withB
  · rw [if_pos (by omega), window, pointerA]
  · rw [if_neg (by omega), window, capacity, pointerA, sizeA]

/-- Two packets and a byte of the third in one completion, and two more of its bytes in
region B. -/
theorem dispatched_iff_endsOutsideB_threePackets :
    ∃ second last, (receiving [emptyPacket, longPacket, emptyPacket]).Run
        (.connected fun _ => 0) [(.connected fun _ => 0, 32776), (second, 2)] last ∧
      second.mRecvBuffer.getFreeSpaceSize.2.mBRegionPointer = some 0 ∧
      last.handlerCalls.map HandlerCall.view = [emptyPacket, longPacket].map Packet.view ∧
      ∀ session ∈ Machine.visited [(.connected fun _ => 0, 32776), (second, 2)] last,
        Dispatched [emptyPacket, longPacket, emptyPacket] session := by
  let packets := [emptyPacket, longPacket, emptyPacket]
  have lengths : (encodeAll packets).length = 32779 := by
    simp [packets, length_longPacket, length_emptyPacket]
  have arrivedFirst : arrived packets 32776 = [emptyPacket, longPacket] := by
    simp [packets, arrived, length_longPacket, length_emptyPacket]
  have arrivedLast : arrived packets 32778 = [emptyPacket, longPacket] := by
    simp [packets, arrived, length_longPacket, length_emptyPacket]
  have whole : (encodeAll (arrived packets (32775 + 1))).length = 32775 := by
    rw [arrivedFirst]
    simp [length_longPacket, length_emptyPacket]
  have start := progress_connected packets fun _ => 0
  rcases start.exists_step (show 0 < 32776 by decide) (by decide) (by rw [lengths]; decide) with
    ⟨second, firstStep⟩
  rcases step_more whole (by decide) firstStep with ⟨_, _, _, total⟩
  have window := window_more whole (by decide) firstStep
  rw [if_pos (by decide)] at window
  have reachable : (receiving packets).Reachable (.connected fun _ => 0) := .ofInitial ⟨_, rfl⟩
  rcases progress_of_reachable (reachable.step firstStep) with ⟨done, rest, progress⟩
  rcases progress.exists_step (show 0 < 2 by decide) (by simp [window])
    (by rw [lengths, total]; decide) with ⟨last, lastStep⟩
  have run := ((Machine.Run.nil (DummyClientSession.connected fun _ => 0)).snoc firstStep).snoc
    lastStep
  have lastTotal : last.mRecvTotal = 32778 := by
    rcases progress.step_eq lastStep with ⟨_, _, _, _, _, _, rfl⟩
    exact congrArg (· + 2) total
  have dispatched := (dispatched_iff_endsOutsideB ⟨_, rfl⟩ run).mpr (by
    intro step stepMem
    rcases List.mem_pair.mp stepMem with rfl | rfl
    · intro inB
      cases inB
    · intro _
      rw [total, arrivedFirst]
      exact arrivedLast)
  have called := dispatched last (List.mem_append_right _ List.mem_cons_self)
  rw [Dispatched, lastTotal, arrivedLast] at called
  exact ⟨second, last, run, by rw [window]; rfl, called, dispatched⟩

/-- The rest of the empty packet goes to region B and its handler is not called. -/
theorem not_always_dispatched :
    ¬∀ packets session, (receiving packets).Reachable session → Dispatched packets session := by
  intro always
  have lengths : (encodeAll [longPacket, emptyPacket]).length = 32775 := by
    simp [length_longPacket, length_emptyPacket]
  have whole : (encodeAll (arrived [longPacket, emptyPacket] (32771 + 1))).length = 32771 := by
    simp [arrived, length_longPacket, length_emptyPacket]
  have start := progress_connected [longPacket, emptyPacket] fun _ => 0
  have reachable : (receiving [longPacket, emptyPacket]).Reachable (.connected fun _ => 0) :=
    .ofInitial ⟨_, rfl⟩
  rcases start.exists_step (show 0 < 32772 by decide) (by decide)
    (by rw [lengths]; decide) with ⟨second, firstStep⟩
  rcases step_more whole (by decide) firstStep with ⟨_, _, _, total⟩
  have window := window_more whole (by decide) firstStep
  rw [if_pos (by decide)] at window
  have secondReachable := reachable.step firstStep
  rcases progress_of_reachable secondReachable with ⟨done, rest, progress⟩
  rcases progress.exists_step (show 0 < 3 by decide) (by simp [window])
    (by rw [lengths, total]) with ⟨third, secondStep⟩
  have ends := (progress.dispatched_step (always _ _ secondReachable) secondStep).mp
    (always _ _ (secondReachable.step secondStep))
  have same := ends (by rw [window]; rfl)
  simp [total, arrived, length_longPacket, length_emptyPacket] at same

end Gsp.DummyClient
