import Gsp.CircularBuffer.Invariant
import Gsp.DummyClient.Basic

/-!
# Packets in a byte stream

`Packet` is a well-formed packet and `encode` its bytes: the header followed by
the payload. `arrived` lists the packets whose last byte is among the first
bytes of a stream of packets. On a region A that holds the front of such a
stream, the loop of `OnReceive` makes exactly the handler calls of the arrived
packets and takes exactly their bytes out of the buffer.
-/

namespace Gsp.DummyClient

/-- A packet whose fields fit the header. -/
structure Packet where
  mType : ℕ
  payload : List UInt8
  type_pos : 0 < mType
  type_lt : mType < maxPktType
  size_le : payload.length ≤ 32767

/-- A value as the two bytes of a `short`. -/
def shortBytes (value : ℕ) : List UInt8 := [UInt8.ofNat value, UInt8.ofNat (value / 256)]

theorem toNat_shortBytes {value : ℕ} (le : value ≤ 32767) :
    (UInt8.ofNat value).toNat + 256 * (UInt8.ofNat (value / 256)).toNat = value := by
  simp only [UInt8.toNat_ofNat']
  omega

theorem bmod_short {value : ℕ} (le : value ≤ 32767) : Int.bmod value (2 ^ 16) = value :=
  Int.bmod_eq_of_le_mul_two (by omega) (by omega)

theorem readShort_shortBytes {value : ℕ} (le : value ≤ 32767) :
    readShort (UInt8.ofNat value) (UInt8.ofNat (value / 256)) = value := by
  have sum : ((UInt8.ofNat value).toNat : ℤ) + 256 * (UInt8.ofNat (value / 256)).toNat = value :=
    congrArg Nat.cast (toNat_shortBytes le)
  unfold readShort
  rw [sum]
  exact bmod_short le

namespace Packet

/-- The header that announces the packet. -/
def header (packet : Packet) : PacketHeader := ⟨packet.payload.length, packet.mType⟩

@[simp]
theorem header_mSize (packet : Packet) : packet.header.mSize = packet.payload.length := rfl

@[simp]
theorem header_mType (packet : Packet) : packet.header.mType = packet.mType := rfl

/-- The bytes of the packet. -/
def encode (packet : Packet) : List UInt8 :=
  shortBytes packet.payload.length ++ shortBytes packet.mType ++ packet.payload

theorem length_encode (packet : Packet) :
    packet.encode.length = headerSize + packet.payload.length := by
  simp only [encode, shortBytes, List.length_append, List.length_cons, List.length_nil, headerSize]

theorem take_encode (packet : Packet) (rest : List UInt8) :
    (packet.encode ++ rest).take headerSize =
      shortBytes packet.payload.length ++ shortBytes packet.mType := by
  simp [encode, shortBytes, headerSize]

theorem drop_encode (packet : Packet) (rest : List UInt8) :
    (packet.encode ++ rest).drop headerSize = packet.payload ++ rest := by
  simp [encode, shortBytes, headerSize]

theorem ofBytes_header (packet : Packet) :
    PacketHeader.ofBytes (shortBytes packet.payload.length ++ shortBytes packet.mType) =
      packet.header := by
  have size_le := packet.size_le
  have type_lt : packet.mType < 1024 := packet.type_lt
  have size_read := readShort_shortBytes size_le
  have type_read := readShort_shortBytes (show packet.mType ≤ 32767 by omega)
  simp only [shortBytes, List.cons_append, List.nil_append, PacketHeader.ofBytes, header,
    size_read, type_read]

end Packet

/-- The bytes of a sequence of packets. -/
def encodeAll (packets : List Packet) : List UInt8 := packets.flatMap Packet.encode

@[simp]
theorem encodeAll_nil : encodeAll [] = [] := rfl

@[simp]
theorem encodeAll_cons (packet : Packet) (packets : List Packet) :
    encodeAll (packet :: packets) = packet.encode ++ encodeAll packets := rfl

theorem encodeAll_append (front back : List Packet) :
    encodeAll (front ++ back) = encodeAll front ++ encodeAll back := by
  simp [encodeAll]

/-- The packets whose last byte is among the first `count` bytes. -/
def arrived : List Packet → ℕ → List Packet
  | [], _ => []
  | packet :: packets, count =>
      if packet.encode.length ≤ count then
        packet :: arrived packets (count - packet.encode.length)
      else []

theorem arrived_of_short {packets : List Packet} {count : ℕ} (short : count < 4) :
    arrived packets count = [] := by
  cases packets with
  | nil => rfl
  | cons packet packets =>
      rw [arrived, if_neg]
      simp only [Packet.length_encode, headerSize]
      omega

/-- The arrived packets come first and their bytes have arrived. -/
theorem arrived_split (packets : List Packet) (count : ℕ) :
    ∃ rest, packets = arrived packets count ++ rest ∧
      (encodeAll (arrived packets count)).length ≤ count ∧
      arrived rest (count - (encodeAll (arrived packets count)).length) = [] := by
  induction packets generalizing count with
  | nil => exact ⟨[], by simp [arrived]⟩
  | cons packet packets ih =>
      by_cases complete : packet.encode.length ≤ count
      · rcases ih (count - packet.encode.length) with ⟨rest, split, fits, none_left⟩
        refine ⟨rest, ?_, ?_, ?_⟩
        · simp only [arrived, complete, if_true, List.cons_append, ← split]
        · simp only [arrived, complete, if_true, encodeAll_cons, List.length_append]
          omega
        · simp only [arrived, complete, if_true, encodeAll_cons, List.length_append]
          rwa [Nat.sub_add_eq]
      · exact ⟨packet :: packets, by simp [arrived, complete]⟩

theorem arrived_append (front back : List Packet) (count : ℕ) :
    arrived (front ++ back) ((encodeAll front).length + count) = front ++ arrived back count := by
  induction front with
  | nil => simp
  | cons packet front ih =>
      have complete : packet.encode.length ≤
          (encodeAll (packet :: front)).length + count := by
        simp only [encodeAll_cons, List.length_append]
        omega
      have remaining : (encodeAll (packet :: front)).length + count - packet.encode.length =
          (encodeAll front).length + count := by
        simp only [encodeAll_cons, List.length_append]
        omega
      rw [List.cons_append, arrived, if_pos complete, remaining, ih, List.cons_append]

/-- With more bytes at least the same packets have arrived. -/
theorem arrived_eq_nil_of_le {packets : List Packet} {fewer more : ℕ} (le : fewer ≤ more)
    (none_arrived : arrived packets more = []) : arrived packets fewer = [] := by
  cases packets with
  | nil => rfl
  | cons packet packets =>
      have incomplete : ¬packet.encode.length ≤ more := by
        intro complete
        simp [arrived, complete] at none_arrived
      rw [arrived, if_neg (by omega)]

/-! ## The parse loop -/

/-- What a handler sees of a packet. -/
def HandlerCall.view (call : HandlerCall) : PacketHeader × List UInt8 :=
  (call.header, call.payload)

/-- What a handler is given. -/
def Packet.view (packet : Packet) : PacketHeader × List UInt8 :=
  (packet.header, packet.payload)

namespace DummyClientSession

/-- The unread part of the stream is region A. -/
def Aligned (stream : CodedInputStream) (buffer : CircularBuffer) : Prop :=
  stream.size - stream.position = buffer.mARegionSize ∧
    (0 < buffer.mARegionSize →
      ∃ data, stream.data = some data ∧ data + stream.position = buffer.mARegionPointer)

theorem onReceiveLoop_of_short {stream : CodedInputStream} {session : DummyClientSession}
    (short : stream.size - stream.position < headerSize) :
    onReceiveLoop stream session = session := by
  have unread : stream.readRaw session.mRecvBuffer.mBuffer headerSize = none := by
    simp [CodedInputStream.readRaw, short]
  rw [onReceiveLoop]
  split
  · rfl
  · next read =>
      rw [unread] at read
      cases read

/-- With a header in region A the read succeeds and moves behind it. -/
theorem readRaw_of_aligned {stream : CodedInputStream} {buffer : CircularBuffer}
    (aligned : Aligned stream buffer) (enough : headerSize ≤ buffer.mARegionSize) :
    stream.readRaw buffer.mBuffer headerSize =
      some (buffer.bytesA.take headerSize,
        { stream with position := stream.position + headerSize }) := by
  rcases aligned with ⟨remaining, start⟩
  have positive : 0 < headerSize := by decide
  have present : ¬stream.size - stream.position < headerSize := by omega
  rcases start (by omega) with ⟨data, data_eq, start_eq⟩
  simp only [CodedInputStream.readRaw, present, if_false, data_eq, CircularBuffer.bytesA,
    Region.take_read _ _ _ _ enough, start_eq]

theorem onReceiveLoop_of_incomplete {stream payloadStream : CodedInputStream}
    {session : DummyClientSession} {bytes : List UInt8}
    (read : stream.readRaw session.mRecvBuffer.mBuffer headerSize = some (bytes, payloadStream))
    (incomplete : payloadStream.getDirectBufferPointer.2 < (PacketHeader.ofBytes bytes).mSize) :
    onReceiveLoop stream session = session := by
  rw [onReceiveLoop]
  split
  · rfl
  · next actual =>
      cases read.symm.trans actual
      simp only [incomplete, if_true]

/-- One round of the loop, once the header has been read and found good. -/
theorem onReceiveLoop_of_read {stream payloadStream : CodedInputStream}
    (session : DummyClientSession) {bytes : List UInt8}
    (read : stream.readRaw session.mRecvBuffer.mBuffer headerSize = some (bytes, payloadStream))
    (complete : (PacketHeader.ofBytes bytes).mSize ≤ payloadStream.getDirectBufferPointer.2)
    (known : 0 < (PacketHeader.ofBytes bytes).mType ∧
      (PacketHeader.ofBytes bytes).mType < maxPktType) :
    onReceiveLoop stream session =
      onReceiveLoop (payloadStream.skip (PacketHeader.ofBytes bytes).mSize)
        { session with
          mRecvBuffer := session.mRecvBuffer.remove
            (Word.ofInt64 (headerSize + (PacketHeader.ofBytes bytes).mSize))
          handlerCalls := session.handlerCalls ++
            [session.handlerCall (PacketHeader.ofBytes bytes)
              payloadStream.getDirectBufferPointer.1] } := by
  have whole := Int.not_lt.mpr complete
  have typed : ¬((maxPktType : ℤ) ≤ (PacketHeader.ofBytes bytes).mType ∨
      (PacketHeader.ofBytes bytes).mType ≤ 0) := by omega
  rw [onReceiveLoop]
  split
  · next unread =>
      cases read.symm.trans unread
  · next actual =>
      cases read.symm.trans actual
      simp only [whole, typed, if_false]
      rfl

/-- The rest of the array and its length. -/
theorem getDirectBufferPointer_snd (stream : CodedInputStream) :
    stream.getDirectBufferPointer.2 = stream.size - stream.position := by
  simp only [CodedInputStream.getDirectBufferPointer]
  split <;> simp_all

/-- The view of a payload that is all there shows the payload. -/
theorem handlerCall_view {data size position : ℕ} {session : DummyClientSession} {packet : Packet}
    (enough : packet.payload.length ≤ size - position)
    (present : Region.read session.mRecvBuffer.mBuffer (data + position) packet.payload.length =
      packet.payload) :
    (session.handlerCall packet.header
      (CodedInputStream.getDirectBufferPointer ⟨some data, size, position⟩).1).view =
      packet.view := by
  by_cases nothing : size - position = 0
  · have empty : packet.payload = [] := List.eq_nil_of_length_eq_zero (by omega)
    simp [CodedInputStream.getDirectBufferPointer, nothing, HandlerCall.view, handlerCall,
      Packet.view, empty]
  · simp [CodedInputStream.getDirectBufferPointer, nothing, HandlerCall.view, handlerCall,
      Packet.view, present]

/-- The loop removes as many bytes as the packet has. -/
theorem ofInt64_packet (packet : Packet) :
    Word.ofInt64 (headerSize + packet.header.mSize) = packet.encode.length := by
  have size_le := packet.size_le
  rw [packet.header_mSize, packet.length_encode, ← Int.natCast_add]
  apply Word.ofInt64_natCast
  simp only [headerSize]
  omega

/-- Behind the header, `Skip` goes to the end of the packet. -/
theorem skip_packet {pointer : Option ℕ} {size position : ℕ} {packet : Packet}
    (enough : packet.encode.length ≤ size - position) :
    CodedInputStream.skip ⟨pointer, size, position + headerSize⟩ packet.header.mSize =
      ⟨pointer, size, position + packet.encode.length⟩ := by
  rw [packet.header_mSize, CodedInputStream.skip_natCast, packet.length_encode]
  rw [packet.length_encode] at enough
  have positive : 0 < headerSize := by decide
  simp only [CodedInputStream.mk.injEq, true_and]
  omega

/-- Behind the header of a packet at the front of region A stands its payload. -/
theorem read_payload {buffer : CircularBuffer} {packet : Packet} {rest : List UInt8}
    (front : buffer.bytesA = packet.encode ++ rest)
    (enough : packet.encode.length ≤ buffer.mARegionSize) :
    Region.read buffer.mBuffer (buffer.mARegionPointer + headerSize) packet.payload.length =
      packet.payload := by
  have payloadFront : (buffer.bytesA.drop headerSize).take packet.payload.length =
      packet.payload := by
    simp only [front, packet.drop_encode, List.take_left]
  rw [packet.length_encode] at enough
  have header_le : headerSize ≤ buffer.mARegionSize := by omega
  have payload_le : packet.payload.length ≤ buffer.mARegionSize - headerSize := by omega
  simpa only [CircularBuffer.bytesA, Region.drop_read _ _ _ _ header_le,
    Region.take_read _ _ _ _ payload_le] using payloadFront

/-- One round of the loop on a region A that starts with a whole packet. -/
theorem onReceiveLoop_of_packet {stream : CodedInputStream} {session : DummyClientSession}
    {packet : Packet} {rest : List UInt8} (aligned : Aligned stream session.mRecvBuffer)
    (front : session.mRecvBuffer.bytesA = packet.encode ++ rest) :
    ∃ call : HandlerCall, call.view = packet.view ∧
      onReceiveLoop stream session =
        onReceiveLoop { stream with position := stream.position + packet.encode.length }
          { session with
            mRecvBuffer := session.mRecvBuffer.remove packet.encode.length
            handlerCalls := session.handlerCalls ++ [call] } := by
  have enough : packet.encode.length ≤ session.mRecvBuffer.mARegionSize := by
    rw [← CircularBuffer.length_bytesA, front, List.length_append]
    exact Nat.le_add_right _ _
  have lengths := packet.length_encode
  have positive : 0 < headerSize := by decide
  have header_read := readRaw_of_aligned aligned (by omega)
  rw [front, packet.take_encode] at header_read
  rcases stream with ⟨pointer, size, position⟩
  rcases aligned with ⟨remaining, start⟩
  rcases start (by omega) with ⟨data, data_eq, start_eq⟩
  clear start
  simp only at remaining data_eq start_eq header_read
  have left : packet.payload.length ≤ size - (position + headerSize) := by omega
  have present := read_payload front enough
  rw [← start_eq, Nat.add_assoc] at present
  subst data_eq
  have round := onReceiveLoop_of_read session header_read
  simp only [packet.ofBytes_header, ofInt64_packet, getDirectBufferPointer_snd,
    skip_packet (show packet.encode.length ≤ size - position by omega)] at round
  have type_pos := packet.type_pos
  have type_lt := packet.type_lt
  refine ⟨_, handlerCall_view left present, round ?_ ?_⟩
  · rw [packet.header_mSize]
    omega
  · rw [packet.header_mType]
    omega

/-- The stream stays in step with region A as long as region A is not used up. -/
theorem Aligned.remove {stream : CodedInputStream} {buffer : CircularBuffer} {count : ℕ}
    (aligned : Aligned stream buffer) (less : count < buffer.mARegionSize) :
    Aligned { stream with position := stream.position + count } (buffer.remove count) := by
  rcases aligned with ⟨remaining, start⟩
  rcases start (by omega) with ⟨data, data_eq, start_eq⟩
  clear start
  simp only [CircularBuffer.WellFormed.remove_of_lt less]
  refine ⟨?_, fun _ => ⟨data, data_eq, ?_⟩⟩
  · simp only
    omega
  · simp only [← start_eq]
    omega

theorem bytesA_remove {buffer : CircularBuffer} {front rest : List UInt8}
    (bytes : buffer.bytesA = front ++ rest) (less : front.length < buffer.mARegionSize) :
    (buffer.remove front.length).bytesA = rest := by
  have dropped := Region.drop_read buffer.mBuffer buffer.mARegionPointer buffer.mARegionSize
    front.length less.le
  have back : buffer.bytesA.drop front.length = rest := by
    rw [bytes, List.drop_left]
  rw [CircularBuffer.WellFormed.remove_of_lt less, ← back]
  exact dropped.symm

/-- A region A that ends inside the first packet is left as it is. -/
theorem onReceiveLoop_of_partial {stream : CodedInputStream} {session : DummyClientSession}
    {packet : Packet} {rest : List UInt8} (aligned : Aligned stream session.mRecvBuffer)
    (front : session.mRecvBuffer.bytesA <+: packet.encode ++ rest)
    (incomplete : session.mRecvBuffer.mARegionSize < packet.encode.length) :
    onReceiveLoop stream session = session := by
  rcases Nat.lt_or_ge session.mRecvBuffer.mARegionSize headerSize with short | enough
  · apply onReceiveLoop_of_short
    rwa [aligned.1]
  · have header_read := readRaw_of_aligned aligned enough
    have header_eq : session.mRecvBuffer.bytesA.take headerSize =
        shortBytes packet.payload.length ++ shortBytes packet.mType := by
      rcases front with ⟨missing, whole⟩
      rw [← packet.take_encode rest, ← whole, List.take_append_of_le_length]
      simpa using enough
    rw [header_eq] at header_read
    apply onReceiveLoop_of_incomplete header_read
    have remaining := aligned.1
    rw [packet.length_encode] at incomplete
    rw [packet.ofBytes_header, packet.header_mSize, getDirectBufferPointer_snd]
    simp only
    omega

/-- The loop over a region A that holds the front of a stream of packets. -/
theorem onReceiveLoop_eq (packets : List Packet) {stream : CodedInputStream}
    (session : DummyClientSession) (wellFormed : session.mRecvBuffer.WellFormed)
    (aligned : Aligned stream session.mRecvBuffer)
    (front : session.mRecvBuffer.bytesA <+: encodeAll packets) :
    ∃ calls : List HandlerCall,
      calls.map HandlerCall.view =
        (arrived packets session.mRecvBuffer.mARegionSize).map Packet.view ∧
      onReceiveLoop stream session =
        { session with
          mRecvBuffer := session.mRecvBuffer.remove
            (encodeAll (arrived packets session.mRecvBuffer.mARegionSize)).length
          handlerCalls := session.handlerCalls ++ calls } := by
  induction packets generalizing stream session with
  | nil =>
      have empty : session.mRecvBuffer.mARegionSize = 0 := by
        have nothing := front.length_le
        simpa using nothing
      have short : stream.size - stream.position < headerSize := by
        simp [aligned.1, empty, headerSize]
      refine ⟨[], rfl, ?_⟩
      simp [onReceiveLoop_of_short short, arrived, wellFormed.remove_zero]
  | cons packet packets ih =>
      by_cases complete : packet.encode.length ≤ session.mRecvBuffer.mARegionSize
      · have isFront : packet.encode <+: session.mRecvBuffer.bytesA := by
          apply List.prefix_of_prefix_length_le (List.prefix_append _ _) front
          rwa [CircularBuffer.length_bytesA]
        rcases isFront with ⟨rest, whole⟩
        rcases onReceiveLoop_of_packet aligned whole.symm with ⟨call, callView, round⟩
        rcases Nat.eq_or_lt_of_le complete with exactly | more
        · have short : stream.size - (stream.position + packet.encode.length) < headerSize := by
            have remaining := aligned.1
            have positive : 0 < headerSize := by decide
            omega
          have last : arrived packets 0 = [] := arrived_of_short (by omega)
          refine ⟨[call], ?_, ?_⟩
          · simp [arrived, ← exactly, last, callView]
          · rw [round, onReceiveLoop_of_short short]
            simp [arrived, ← exactly, last]
        · rw [← whole, encodeAll_cons, List.prefix_append_right_inj] at front
          have restFront : (session.mRecvBuffer.remove packet.encode.length).bytesA <+:
              encodeAll packets := by
            rwa [bytesA_remove whole.symm more]
          rcases ih { session with
              mRecvBuffer := session.mRecvBuffer.remove packet.encode.length
              handlerCalls := session.handlerCalls ++ [call] }
            (wellFormed.remove _) (aligned.remove more) restFront with ⟨calls, views, loop⟩
          have left : (session.mRecvBuffer.remove packet.encode.length).mARegionSize =
              session.mRecvBuffer.mARegionSize - packet.encode.length := by
            rw [CircularBuffer.WellFormed.remove_of_lt more]
          simp only [left] at views loop
          refine ⟨call :: calls, ?_, ?_⟩
          · simp [arrived, complete, callView, views]
          · rw [round, loop]
            simp [arrived, complete, wellFormed.remove_remove more]
      · refine ⟨[], by simp [arrived, complete], ?_⟩
        have stopped := onReceiveLoop_of_partial aligned front (Nat.lt_of_not_le complete)
        simp [stopped, arrived, complete, wellFormed.remove_zero]

end DummyClientSession

end Gsp.DummyClient
