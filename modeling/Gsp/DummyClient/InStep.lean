import Gsp.DummyClient.Receive
import Gsp.DummyClient.RoundTrip

/-!
# Parser and buffer in step

A peer may send any bytes. `dispatchable` is the header that the loop dispatches
next, read off the bytes of region A alone. As long as no such header has a
negative size, the loop takes out of the buffer what it has dispatched; at a
negative size `Skip` stays where it is while `Remove` takes the sum, as a
`size_t`, of that size and the size of the header.
-/

namespace Gsp.DummyClient

open Gsp.CircularBuffer

/-- The header that is dispatched first, if there is one. -/
def dispatchable (bytes : List UInt8) : Option PacketHeader :=
  let header := PacketHeader.ofBytes (bytes.take headerSize)
  if bytes.length < headerSize then none
  else if ((bytes.length - headerSize : ℕ) : ℤ) < header.mSize then none
  else if (maxPktType : ℤ) ≤ header.mType ∨ header.mType ≤ 0 then none
  else some header

theorem le_length_of_dispatchable {bytes : List UInt8} {header : PacketHeader}
    (next : dispatchable bytes = some header) :
    header = PacketHeader.ofBytes (bytes.take headerSize) ∧
      headerSize + header.mSize.toNat ≤ bytes.length ∧ 0 < header.mType ∧
        header.mType < maxPktType := by
  simp only [dispatchable, Option.ite_none_left_eq_some, Option.some.injEq] at next
  rcases next with ⟨whole, complete, known, rfl⟩
  exact ⟨rfl, by omega, by omega, by omega⟩

/-- Packet after packet, the bytes lead to a dispatched header with a negative size. -/
def MeetsNegative (bytes : List UInt8) : Prop :=
  match _next : dispatchable bytes with
  | none => False
  | some header =>
      header.mSize < 0 ∨ MeetsNegative (bytes.drop (headerSize + header.mSize.toNat))
termination_by bytes.length
decreasing_by
  have fits := (le_length_of_dispatchable _next).2.1
  rw [List.length_drop]
  have positive : 0 < headerSize := by decide
  omega

/-- The bytes of a call: its header and what is seen of the payload. -/
def HandlerCall.bytes (call : HandlerCall) : List UInt8 :=
  call.header.toBytes ++ call.payload

/-- The view has as many bytes as the header says, all of them in this region. -/
def HandlerCall.Inside (call : HandlerCall) (start size : ℕ) : Prop :=
  0 ≤ call.header.mSize ∧ (0 < call.header.mSize → ∃ position, call.payloadPos = some position ∧
    start ≤ position ∧ position + call.header.mSize ≤ start + size)

theorem meetsNegative_iff {bytes : List UInt8} {header : PacketHeader}
    (next : dispatchable bytes = some header) : MeetsNegative bytes ↔
      header.mSize < 0 ∨ MeetsNegative (bytes.drop (headerSize + header.mSize.toNat)) := by
  rw [MeetsNegative]
  split
  · next none_next => cases next.symm.trans none_next
  · next some_next =>
      cases next.symm.trans some_next
      rfl

theorem not_meetsNegative_of_none {bytes : List UInt8} (stop : dispatchable bytes = none) :
    ¬MeetsNegative bytes := by
  rw [MeetsNegative]
  split
  · exact id
  · next some_next => cases stop.symm.trans some_next

theorem shortBytes_readShort (low high : UInt8) :
    shortBytes (readShort low high % 2 ^ 16).toNat = [low, high] := by
  have low_lt := low.toNat_lt
  have high_lt := high.toNat_lt
  have value_eq : (readShort low high % 2 ^ 16).toNat = low.toNat + 256 * high.toNat := by
    have reduced : readShort low high % (65536 : ℕ) =
        ((low.toNat + 256 * high.toNat : ℕ) : ℤ) % (65536 : ℕ) := Int.bmod_emod
    omega
  have low_eq : UInt8.ofNat (low.toNat + 256 * high.toNat) = low := by
    apply UInt8.toNat_inj.mp
    rw [UInt8.toNat_ofNat']
    omega
  have high_eq : UInt8.ofNat ((low.toNat + 256 * high.toNat) / 256) = high := by
    apply UInt8.toNat_inj.mp
    rw [UInt8.toNat_ofNat']
    omega
  rw [value_eq, shortBytes, low_eq, high_eq]

/-- A header that has been read has the bytes that it was read from. -/
theorem toBytes_ofBytes {bytes : List UInt8} (length_eq : bytes.length = headerSize) :
    (PacketHeader.ofBytes bytes).toBytes = bytes := by
  rcases bytes with _ | ⟨sizeLow, _ | ⟨sizeHigh, _ | ⟨typeLow, _ | ⟨typeHigh, _ | _⟩⟩⟩⟩ <;>
    simp [headerSize] at length_eq
  simp only [PacketHeader.ofBytes, PacketHeader.toBytes, shortBytes_readShort, List.cons_append,
    List.nil_append]

/-! ## The loop -/

namespace DummyClientSession

variable {stream : CodedInputStream} {session : DummyClientSession} {header : PacketHeader}

/-- The loop stops and leaves the buffer and the calls as they are. -/
theorem onReceiveLoop_of_none (aligned : Aligned stream session.mRecvBuffer)
    (stop : dispatchable session.mRecvBuffer.bytesA = none) :
    onReceiveLoop stream session = session ∨
      onReceiveLoop stream session = session.disconnectRequest := by
  rcases Nat.lt_or_ge session.mRecvBuffer.mARegionSize headerSize with short | enough
  · left
    apply onReceiveLoop_of_short
    rwa [aligned.1]
  · have read := readRaw_of_aligned aligned enough
    have remaining := aligned.1
    have payload_eq := getDirectBufferPointer_snd
      { stream with position := stream.position + headerSize }
    simp only at payload_eq
    by_cases incomplete : ((session.mRecvBuffer.mARegionSize - headerSize : ℕ) : ℤ) <
        (PacketHeader.ofBytes (session.mRecvBuffer.bytesA.take headerSize)).mSize
    · left
      apply onReceiveLoop_of_incomplete read
      rw [payload_eq]
      omega
    · right
      have whole : ¬session.mRecvBuffer.mARegionSize < headerSize := by omega
      simp only [dispatchable, length_bytesA, if_neg whole, if_neg incomplete] at stop
      have complete : ¬(({ stream with position := stream.position + headerSize } :
          CodedInputStream).getDirectBufferPointer.2 : ℤ) <
            (PacketHeader.ofBytes (session.mRecvBuffer.bytesA.take headerSize)).mSize := by
        rw [payload_eq]
        omega
      rw [onReceiveLoop]
      split
      · next unread => cases read.symm.trans unread
      · next actual =>
          cases read.symm.trans actual
          simp only [complete, if_false]
          split
          · rfl
          · next known => simp [known] at stop

/-- One round of the loop. -/
theorem onReceiveLoop_of_some (aligned : Aligned stream session.mRecvBuffer)
    (next : dispatchable session.mRecvBuffer.bytesA = some header) :
    ∃ payloadPos,
      (0 < header.mSize →
        payloadPos = some (session.mRecvBuffer.mARegionPointer + headerSize)) ∧
      onReceiveLoop stream session =
        onReceiveLoop
          (CodedInputStream.skip { stream with position := stream.position + headerSize }
            header.mSize)
          { session with
            mRecvBuffer := session.mRecvBuffer.remove (Word.ofInt64 (headerSize + header.mSize))
            handlerCalls := session.handlerCalls ++ [session.handlerCall header payloadPos] } := by
  rcases le_length_of_dispatchable next with ⟨isHeader, fits, known⟩
  rw [length_bytesA] at fits
  have read := readRaw_of_aligned aligned (by omega)
  have positive : 0 < headerSize := by decide
  rcases aligned with ⟨remaining, start⟩
  rcases start (by omega) with ⟨data, data_eq, start_eq⟩
  clear start
  have payload_eq := getDirectBufferPointer_snd
    { stream with position := stream.position + headerSize }
  simp only at payload_eq
  have round := onReceiveLoop_of_read session read (by rw [← isHeader, payload_eq]; omega)
    (isHeader ▸ known)
  rw [← isHeader] at round
  refine ⟨_, ?_, round⟩
  intro nonempty
  have more : ¬stream.size - (stream.position + headerSize) = 0 := by omega
  simp only [CodedInputStream.getDirectBufferPointer, more, if_false, data_eq, Option.map_some]
  congr 1
  omega

/-- The loop leaves a well-formed buffer, whatever the headers say. -/
theorem wellFormed_onReceiveLoop (wellFormed : session.mRecvBuffer.WellFormed) :
    (onReceiveLoop stream session).mRecvBuffer.WellFormed ∧
      (onReceiveLoop stream session).mRecvBuffer.mCapacity = session.mRecvBuffer.mCapacity := by
  fun_induction onReceiveLoop stream session with
  | case1 => exact ⟨wellFormed, rfl⟩
  | case2 => exact ⟨wellFormed, rfl⟩
  | case3 => exact ⟨wellFormed, rfl⟩
  | case4 stream session _ _ _ _ _ _ _ _ _ _ ih =>
      rcases ih (wellFormed.remove _) with ⟨kept, capacity⟩
      exact ⟨kept, capacity.trans (capacity_remove _ _)⟩

theorem bytes_handlerCall {payloadPos : Option ℕ}
    (next : dispatchable session.mRecvBuffer.bytesA = some header)
    (position : 0 < header.mSize →
      payloadPos = some (session.mRecvBuffer.mARegionPointer + headerSize)) :
    (session.handlerCall header payloadPos).bytes =
      session.mRecvBuffer.bytesA.take (headerSize + header.mSize.toNat) := by
  rcases le_length_of_dispatchable next with ⟨isHeader, fits, _⟩
  rw [length_bytesA] at fits
  have header_bytes : header.toBytes = session.mRecvBuffer.bytesA.take headerSize := by
    rw [isHeader]
    apply toBytes_ofBytes
    rw [List.length_take, length_bytesA]
    omega
  have payload_bytes : (session.handlerCall header payloadPos).payload =
      (session.mRecvBuffer.bytesA.drop headerSize).take header.mSize.toNat := by
    by_cases nonempty : 0 < header.mSize
    · rw [position nonempty, bytesA, Region.drop_read _ _ _ _ (by omega),
        Region.take_read _ _ _ _ (by omega)]
      rfl
    · have nothing : header.mSize.toNat = 0 := Int.toNat_of_nonpos (Int.not_lt.mp nonempty)
      simp only [handlerCall, nothing, Region.read_zero, List.take_zero]
      split <;> rfl
  rw [HandlerCall.bytes, payload_bytes, List.take_add]
  exact congrArg (· ++ _) header_bytes

/-- The bytes at the front of region A, and what is left without them. -/
theorem contents_eq_take_append (wellFormed : session.mRecvBuffer.WellFormed) {count : ℕ}
    (fits : count ≤ session.mRecvBuffer.mARegionSize) :
    session.mRecvBuffer.contents =
      session.mRecvBuffer.bytesA.take count ++ (session.mRecvBuffer.remove count).contents := by
  have front : session.mRecvBuffer.contents.take count = session.mRecvBuffer.bytesA.take count := by
    rw [contents, List.take_append_of_le_length (by rwa [length_bytesA])]
  rw [wellFormed.contents_remove, ← front, List.take_append_drop]

theorem bytesA_drop {count : ℕ} (less : count < session.mRecvBuffer.mARegionSize) :
    (session.mRecvBuffer.remove count).bytesA = session.mRecvBuffer.bytesA.drop count := by
  have split := (List.take_append_drop count session.mRecvBuffer.bytesA).symm
  have length_eq : (session.mRecvBuffer.bytesA.take count).length = count := by
    rw [List.length_take, length_bytesA]
    omega
  have removed := bytesA_remove split (by rwa [length_eq])
  rwa [length_eq] at removed

/-- What has been dispatched on the way are the bytes that have left the buffer,
from the front of region A, and the views lie in that region. -/
structure Consumes (session : DummyClientSession) (calls : List HandlerCall)
    (after : DummyClientSession) : Prop where
  called : after.handlerCalls = session.handlerCalls ++ calls
  front : calls.flatMap HandlerCall.bytes <+: session.mRecvBuffer.bytesA
  contents_eq : session.mRecvBuffer.contents =
    calls.flatMap HandlerCall.bytes ++ after.mRecvBuffer.contents
  inside : ∀ call ∈ calls,
    call.Inside session.mRecvBuffer.mARegionPointer session.mRecvBuffer.mARegionSize

theorem Consumes.nil {after : DummyClientSession}
    (called : after.handlerCalls = session.handlerCalls)
    (buffer_eq : after.mRecvBuffer = session.mRecvBuffer) : Consumes session [] after where
  called := by rw [called, List.append_nil]
  front := List.nil_prefix
  contents_eq := by rw [buffer_eq, List.flatMap_nil, List.nil_append]
  inside := by simp

/-- A call in front of the rest of a region. -/
theorem Consumes.cons {call : HandlerCall} {calls : List HandlerCall} {after : DummyClientSession}
    {count : ℕ} (less : count < session.mRecvBuffer.mARegionSize)
    (wellFormed : session.mRecvBuffer.WellFormed)
    (call_bytes : call.bytes = session.mRecvBuffer.bytesA.take count)
    (callInside : call.Inside session.mRecvBuffer.mARegionPointer session.mRecvBuffer.mARegionSize)
    (rest : Consumes { session with
        mRecvBuffer := session.mRecvBuffer.remove count
        handlerCalls := session.handlerCalls ++ [call] } calls after) :
    Consumes session (call :: calls) after where
  called := by rw [rest.called, List.append_assoc, List.singleton_append]
  front := by
    have restFront := rest.front
    simp only [bytesA_drop less] at restFront
    rw [List.flatMap_cons, call_bytes]
    rcases restFront with ⟨more, whole⟩
    refine ⟨more, ?_⟩
    rw [List.append_assoc, whole, List.take_append_drop]
  contents_eq := by
    rw [List.flatMap_cons, call_bytes, List.append_assoc, ← rest.contents_eq]
    exact contents_eq_take_append wellFormed less.le
  inside := by
    refine List.forall_mem_cons.mpr ⟨callInside, fun other otherMem => ?_⟩
    rcases rest.inside other otherMem with ⟨nonneg, view⟩
    refine ⟨nonneg, fun nonempty => ?_⟩
    rcases view nonempty with ⟨position, position_eq, lower, upper⟩
    rw [WellFormed.remove_of_lt less] at lower upper
    simp only at lower upper
    exact ⟨position, position_eq, by omega, by omega⟩

/-- The last call of a region. -/
theorem Consumes.last {call : HandlerCall} (wellFormed : session.mRecvBuffer.WellFormed)
    (call_bytes : call.bytes =
      session.mRecvBuffer.bytesA.take session.mRecvBuffer.mARegionSize)
    (inside : call.Inside session.mRecvBuffer.mARegionPointer session.mRecvBuffer.mARegionSize) :
    Consumes session [call] { session with
      mRecvBuffer := session.mRecvBuffer.remove session.mRecvBuffer.mARegionSize
      handlerCalls := session.handlerCalls ++ [call] } where
  called := rfl
  front := by
    rw [List.flatMap_singleton, call_bytes]
    exact List.take_prefix _ _
  contents_eq := by
    rw [List.flatMap_singleton, call_bytes]
    exact contents_eq_take_append wellFormed le_rfl
  inside := List.forall_mem_singleton.mpr inside

/-- A round for a size that is not negative takes the packet out of the buffer. -/
theorem onReceiveLoop_of_nonneg (wellFormed : session.mRecvBuffer.WellFormed)
    (aligned : Aligned stream session.mRecvBuffer)
    (next : dispatchable session.mRecvBuffer.bytesA = some header) (nonneg : ¬header.mSize < 0) :
    ∃ call : HandlerCall,
      call.bytes = session.mRecvBuffer.bytesA.take (headerSize + header.mSize.toNat) ∧
      call.Inside session.mRecvBuffer.mARegionPointer session.mRecvBuffer.mARegionSize ∧
      onReceiveLoop stream session =
        onReceiveLoop
          { stream with position := stream.position + (headerSize + header.mSize.toNat) }
          { session with
            mRecvBuffer := session.mRecvBuffer.remove (headerSize + header.mSize.toNat)
            handlerCalls := session.handlerCalls ++ [call] } := by
  rcases le_length_of_dispatchable next with ⟨_, fits, _⟩
  rw [length_bytesA] at fits
  have positive : 0 < headerSize := by decide
  rcases onReceiveLoop_of_some aligned next with ⟨payloadPos, position, round⟩
  have removed : Word.ofInt64 (headerSize + header.mSize) = headerSize + header.mSize.toNat := by
    have regionA := wellFormed.regionA
    have capacity_lt := wellFormed.capacity_lt
    have sum : (headerSize : ℤ) + header.mSize = (headerSize + header.mSize.toNat : ℕ) := by omega
    rw [sum]
    exact Word.ofInt64_natCast (by omega)
  have skipped : CodedInputStream.skip
      { stream with position := stream.position + headerSize } header.mSize =
        { stream with position := stream.position + (headerSize + header.mSize.toNat) } := by
    have remaining := aligned.1
    rw [CodedInputStream.skip, if_neg nonneg]
    simp only [CodedInputStream.mk.injEq, true_and]
    omega
  rw [skipped, removed] at round
  refine ⟨_, bytes_handlerCall next position, ?_, round⟩
  refine ⟨Int.not_lt.mp nonneg, fun nonempty => ⟨_, position nonempty, ?_, ?_⟩⟩
  · omega
  · simp only [handlerCall]
    omega

/-- Unless a negative size is met, the loop takes out of the buffer what it dispatches. -/
theorem onReceiveLoop_consumes (wellFormed : session.mRecvBuffer.WellFormed)
    (aligned : Aligned stream session.mRecvBuffer)
    (fine : ¬MeetsNegative session.mRecvBuffer.bytesA) :
    ∃ calls, Consumes session calls (onReceiveLoop stream session) := by
  induction isSize : session.mRecvBuffer.mARegionSize using Nat.strong_induction_on
    generalizing stream session with
  | _ size ih =>
      subst isSize
      cases next : dispatchable session.mRecvBuffer.bytesA with
      | none =>
          rcases onReceiveLoop_of_none aligned next with same | same
          · rw [same]
            exact ⟨[], .nil rfl rfl⟩
          · rw [same]
            exact ⟨[], .nil rfl rfl⟩
      | some header =>
          rw [meetsNegative_iff next, not_or] at fine
          rcases onReceiveLoop_of_nonneg wellFormed aligned next fine.1 with
            ⟨call, call_bytes, inside, round⟩
          have fits := (le_length_of_dispatchable next).2.1
          have positive : 0 < headerSize := by decide
          rw [length_bytesA] at fits
          rw [round]
          rcases Nat.eq_or_lt_of_le fits with exactly | more
          · have short : stream.size -
                (stream.position + (headerSize + header.mSize.toNat)) < headerSize := by
              have remaining := aligned.1
              omega
            rw [onReceiveLoop_of_short short, exactly]
            rw [exactly] at call_bytes
            exact ⟨[call], .last wellFormed call_bytes inside⟩
          · have less : (session.mRecvBuffer.remove
                (headerSize + header.mSize.toNat)).mARegionSize <
                  session.mRecvBuffer.mARegionSize := by
              rw [WellFormed.remove_of_lt more]
              simp only
              omega
            have restFine := fine.2
            rw [← bytesA_drop more] at restFine
            have later := @ih _ less _ { session with
              mRecvBuffer := session.mRecvBuffer.remove (headerSize + header.mSize.toNat)
              handlerCalls := session.handlerCalls ++ [call] } (wellFormed.remove _)
              (aligned.remove more) restFine rfl
            rcases later with ⟨calls, consumes⟩
            exact ⟨call :: calls, consumes.cons more wellFormed call_bytes inside⟩

/-- A negative size that is met reaches a handler. -/
theorem onReceiveLoop_of_meetsNegative (wellFormed : session.mRecvBuffer.WellFormed)
    (aligned : Aligned stream session.mRecvBuffer)
    (meets : MeetsNegative session.mRecvBuffer.bytesA) :
    ∃ calls call, session.handlerCalls ++ calls ++ [call] <+:
      (onReceiveLoop stream session).handlerCalls ∧ call.header.mSize < 0 := by
  induction isSize : session.mRecvBuffer.mARegionSize using Nat.strong_induction_on
    generalizing stream session with
  | _ size ih =>
      subst isSize
      cases next : dispatchable session.mRecvBuffer.bytesA with
      | none => exact absurd meets (not_meetsNegative_of_none next)
      | some header =>
          have fits := (le_length_of_dispatchable next).2.1
          have positive : 0 < headerSize := by decide
          rw [length_bytesA] at fits
          by_cases negative : header.mSize < 0
          · rcases onReceiveLoop_of_some aligned next with ⟨payloadPos, _, round⟩
            refine ⟨[], session.handlerCall header payloadPos, ?_, negative⟩
            rw [round, List.append_nil]
            refine List.IsPrefix.trans ?_ (handlerCalls_grow _ _)
            exact List.prefix_rfl
          · rcases onReceiveLoop_of_nonneg wellFormed aligned next negative with
              ⟨first, _, _, round⟩
            have later := ((meetsNegative_iff next).mp meets).resolve_left negative
            have more : headerSize + header.mSize.toNat < session.mRecvBuffer.mARegionSize := by
              by_contra all
              rw [List.drop_eq_nil_of_le (by rw [length_bytesA]; omega)] at later
              exact not_meetsNegative_of_none rfl later
            have less : (session.mRecvBuffer.remove
                (headerSize + header.mSize.toNat)).mARegionSize <
                  session.mRecvBuffer.mARegionSize := by
              rw [WellFormed.remove_of_lt more]
              simp only
              omega
            rw [← bytesA_drop more] at later
            rcases @ih _ less _ { session with
              mRecvBuffer := session.mRecvBuffer.remove (headerSize + header.mSize.toNat)
              handlerCalls := session.handlerCalls ++ [first] } (wellFormed.remove _)
              (aligned.remove more) later rfl with ⟨calls, call, isPrefix, negativeCall⟩
            refine ⟨first :: calls, call, ?_, negativeCall⟩
            rw [round]
            simpa using isPrefix

/-- `OnReceive` takes out of the buffer the bytes that it dispatches, no others,
and all views lie in the region that it was called on. -/
def InStep (session : DummyClientSession) : Prop :=
  ∃ calls, Consumes session calls session.onReceive

theorem inStep_iff (wellFormed : session.mRecvBuffer.WellFormed) :
    InStep session ↔ ¬MeetsNegative session.mRecvBuffer.bytesA := by
  have aligned : Aligned
      ⟨session.mRecvBuffer.getBufferStart, session.mRecvBuffer.getContiguiousBytes, 0⟩
      session.mRecvBuffer := by
    refine ⟨wellFormed.getContiguiousBytes_eq, fun nonempty => ?_⟩
    exact ⟨session.mRecvBuffer.mARegionPointer, by simp [getBufferStart, nonempty], rfl⟩
  constructor
  · rintro ⟨calls, consumes⟩ meets
    rcases onReceiveLoop_of_meetsNegative wellFormed aligned meets with
      ⟨front, call, isPrefix, negative⟩
    have called : (onReceiveLoop _ session).handlerCalls = _ := consumes.called
    rw [called, List.append_assoc, List.prefix_append_right_inj] at isPrefix
    have callMem : call ∈ calls := isPrefix.subset (by simp)
    have nonneg := (consumes.inside call callMem).1
    omega
  · exact onReceiveLoop_consumes wellFormed aligned

end DummyClientSession

/-! ## Connections -/

/-- A connection, with all the bytes received on it. -/
structure Connection where
  session : DummyClientSession
  received : List UInt8

/-- The session when `OnReceive` is called after the arrival of these bytes. -/
def Connection.parsing (state : Connection) (bytes : List UInt8) : DummyClientSession :=
  match state.session.postRecv with
  | none => state.session
  | some ((_, position), posted) =>
      let delivered := posted.deliver position bytes
      { delivered with mRecvBuffer := delivered.mRecvBuffer.commit bytes.length }

/-- Each step posts a receive and completes it with any bytes that fit. -/
def connection : Machine Connection (List UInt8) where
  Initial state := ∃ raw, state = ⟨.connected raw, []⟩
  Step state bytes after :=
    ∃ len position posted, state.session.postRecv = some ((len, position), posted) ∧
      0 < bytes.length ∧ bytes.length ≤ len ∧
      after = ⟨(posted.deliver position bytes).recvCompletion bytes.length,
        state.received ++ bytes⟩

/-- Every received byte has been dispatched once, or is in the buffer. -/
def Accounted (state : Connection) : Prop :=
  state.received = state.session.handlerCalls.flatMap HandlerCall.bytes ++
    state.session.mRecvBuffer.contents

/-- What every run keeps, whatever is sent. -/
structure Connection.Invariant (state : Connection) : Prop where
  wellFormed : state.session.mRecvBuffer.WellFormed
  capacity : state.session.mRecvBuffer.mCapacity = DummyClientSession.clientBufSize

namespace Connection.Invariant

variable {state after : Connection} {bytes : List UInt8}

/-- `OnReceive` is called with the new bytes behind the old ones. -/
theorem parsing (invariant : state.Invariant) (step : connection.Step state bytes after) :
    (state.parsing bytes).mRecvBuffer.WellFormed ∧
      (state.parsing bytes).mRecvBuffer.mCapacity = DummyClientSession.clientBufSize ∧
      (state.parsing bytes).mRecvBuffer.contents = state.session.mRecvBuffer.contents ++ bytes ∧
      (state.parsing bytes).handlerCalls = state.session.handlerCalls ∧
      after.session.mRecvBuffer = (state.parsing bytes).onReceive.mRecvBuffer ∧
      after.session.handlerCalls = (state.parsing bytes).onReceive.handlerCalls ∧
      after.received = state.received ++ bytes := by
  rcases invariant with ⟨wellFormed, capacity⟩
  rcases step with ⟨len, position, posted, postRecv, _, fits, rfl⟩
  have connected : state.session.mConnected = true := by
    by_contra closed
    simp [DummyClientSession.postRecv, closed] at postRecv
  have window := postRecv
  rw [DummyClientSession.postRecv_eq wellFormed capacity connected, Option.ite_none_left_eq_some,
    Option.some.injEq, Prod.mk.injEq, Prod.mk.injEq] at window
  rcases window with ⟨_, ⟨rfl, rfl⟩, rfl⟩
  have queried := wellFormed.getFreeSpaceSize
  have offered := wellFormed.offered_getFreeSpaceSize
  have contents_eq := queried.contents_store_commit offered fits
  rw [wellFormed.contents_getFreeSpaceSize] at contents_eq
  have parsing_eq : state.parsing bytes = { state.session with
      mRecvBuffer := (state.session.mRecvBuffer.getFreeSpaceSize.2.store bytes).commit
        bytes.length } := by
    rw [Connection.parsing, postRecv]
    rfl
  rw [parsing_eq]
  refine ⟨queried.store_commit offered fits, ?_, contents_eq, rfl, rfl, rfl, rfl⟩
  simpa using capacity

theorem step (invariant : state.Invariant) (step : connection.Step state bytes after) :
    after.Invariant := by
  rcases invariant.parsing step with ⟨wellFormed, capacity, _, _, buffer_eq, _⟩
  rcases DummyClientSession.wellFormed_onReceiveLoop wellFormed with ⟨kept, same⟩
  refine ⟨buffer_eq ▸ kept, ?_⟩
  rw [buffer_eq]
  exact same.trans capacity

theorem of_reachable (reachable : connection.Reachable state) : state.Invariant := by
  refine reachable.invariant ?_ (fun _ _ _ _ invariant step => invariant.step step)
  rintro _ ⟨raw, rfl⟩
  exact ⟨.construct raw (by decide), rfl⟩

/-- A call in step leaves every byte accounted for. -/
theorem accounted (invariant : state.Invariant) (step : connection.Step state bytes after)
    (accounted : Accounted state) (inStep : (state.parsing bytes).InStep) : Accounted after := by
  rcases invariant.parsing step with
    ⟨_, _, contents_eq, calls_eq, buffer_eq, called_eq, received_eq⟩
  rcases inStep with ⟨calls, consumes⟩
  have split := consumes.contents_eq
  rw [contents_eq, ← buffer_eq] at split
  rw [Accounted, received_eq, accounted, List.append_assoc, split, called_eq, consumes.called,
    calls_eq, List.flatMap_append, List.append_assoc]

end Connection.Invariant

/-- Parser and buffer stay in step over a whole connection exactly when no call
of `OnReceive` finds, packet after packet, a header with a known type and a
negative size. -/
theorem inStep_iff_not_meetsNegative {first last : Connection}
    {steps : List (Connection × List UInt8)} (run : connection.Run first steps last)
    (initial : connection.Initial first) :
    ((∀ step ∈ steps, (step.1.parsing step.2).InStep) ∧
      ∀ state ∈ Machine.visited steps last, Accounted state) ↔
    ∀ step ∈ steps, ¬MeetsNegative (step.1.parsing step.2).mRecvBuffer.bytesA := by
  have exact_step : ∀ step ∈ steps, (step.1.parsing step.2).InStep ↔
      ¬MeetsNegative (step.1.parsing step.2).mRecvBuffer.bytesA := by
    intro step stepMem
    rcases run.step_of_mem initial step stepMem with ⟨reachable, next, isStep⟩
    have invariant := Connection.Invariant.of_reachable reachable
    exact DummyClientSession.inStep_iff (invariant.parsing isStep).1
  constructor
  · rintro ⟨inStep, _⟩ step stepMem
    exact (exact_step step stepMem).mp (inStep step stepMem)
  · intro fine
    refine ⟨fun step stepMem => (exact_step step stepMem).mpr (fine step stepMem), ?_⟩
    apply @Machine.Run.good_of_fine _ _ connection Accounted
      (fun state bytes => ¬MeetsNegative (state.parsing bytes).mRecvBuffer.bytesA) _ _ _ run initial
    · rcases initial with ⟨raw, rfl⟩
      simp [Accounted, DummyClientSession.connected]
    · intro before bytes after reachable accounted step fineNow
      have invariant := Connection.Invariant.of_reachable reachable
      have inStep := (DummyClientSession.inStep_iff (invariant.parsing step).1).mpr fineNow
      exact invariant.accounted step accounted inStep
    · exact fine

/-- A first completion of so many bytes. -/
theorem exists_run_first {bytes : List UInt8} (nonempty : 0 < bytes.length)
    (fits : bytes.length ≤ DummyClientSession.clientBufSize) : ∃ last,
    connection.Run ⟨.connected fun _ => 0, []⟩ [(⟨.connected fun _ => 0, []⟩, bytes)] last :=
  ⟨_, (Machine.Run.nil _).snoc ⟨65536, 0, _, rfl, nonempty, fits, rfl⟩⟩

/-- A packet of two bytes and the start of another one. -/
theorem inStep_iff_not_meetsNegative_two : ∃ first steps last, connection.Initial first ∧
    connection.Run first steps last ∧ steps.map Prod.snd = [[2, 0, 1, 0, 7, 8, 9]] ∧
    (((∀ step ∈ steps, (step.1.parsing step.2).InStep) ∧
      ∀ state ∈ Machine.visited steps last, Accounted state) ↔
    ∀ step ∈ steps, ¬MeetsNegative (step.1.parsing step.2).mRecvBuffer.bytesA) := by
  have initial : connection.Initial ⟨.connected fun _ => 0, []⟩ := ⟨_, rfl⟩
  rcases @exists_run_first [2, 0, 1, 0, 7, 8, 9] (by decide) (by decide) with ⟨last, run⟩
  exact ⟨_, _, last, initial, run, rfl, inStep_iff_not_meetsNegative run initial⟩

/-- The size -1 with the type 1: three bytes are removed for a header of four. -/
theorem not_always_inStep : ¬∀ first steps last, connection.Initial first →
    connection.Run first steps last →
      (∀ step ∈ steps, (step.1.parsing step.2).InStep) ∧
        ∀ state ∈ Machine.visited steps last, Accounted state := by
  intro always
  rcases @exists_run_first [255, 255, 1, 0] (by decide) (by decide) with ⟨last, run⟩
  have initial : connection.Initial ⟨.connected fun _ => 0, []⟩ := ⟨_, rfl⟩
  rcases (always _ _ last initial run).1 _ List.mem_cons_self with ⟨calls, consumes⟩
  have next : dispatchable [255, 255, 1, 0] = some ⟨-1, 1⟩ := by decide
  rcases @DummyClientSession.onReceiveLoop_of_some ⟨some 0, 4, 0⟩
    (Connection.parsing ⟨.connected fun _ => 0, []⟩ [255, 255, 1, 0]) ⟨-1, 1⟩
    ⟨by decide, fun _ => ⟨0, rfl, rfl⟩⟩ next with ⟨payloadPos, _, round⟩
  have after_eq : (Connection.parsing ⟨.connected fun _ => 0, []⟩ [255, 255, 1, 0]).onReceive =
      _ := round.trans (DummyClientSession.onReceiveLoop_of_short (by decide))
  have called := consumes.called
  have removed := congrArg List.length consumes.contents_eq
  rw [after_eq] at called removed
  cases List.append_cancel_left called
  have before_length : (Connection.parsing ⟨.connected fun _ => 0, []⟩
      [255, 255, 1, 0]).mRecvBuffer.contents.length = 4 := by decide
  have after_length : ((Connection.parsing ⟨.connected fun _ => 0, []⟩
      [255, 255, 1, 0]).mRecvBuffer.remove 3).contents.length = 1 := by decide
  rw [List.length_append, List.flatMap_singleton, HandlerCall.bytes, List.length_append,
    PacketHeader.length_toBytes] at removed
  have sum : 4 = headerSize + _ + 1 := (before_length.symm.trans removed).trans
    (congrArg (_ + ·) after_length)
  simp only [headerSize] at sum
  omega

end Gsp.DummyClient
