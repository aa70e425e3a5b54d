import Gsp.DummyClient.SendRequest

/-!
# From `SendRequest` to `OnReceive`

The header has 16 bits for the size and its sign. The bytes of accepted requests
are decoded as these requests exactly when every payload fits the header; the
first larger one is seen with a negative size and without its bytes.
-/

namespace Gsp.DummyClient

open Gsp.CircularBuffer

/-- The type and the payload that a handler is given. -/
def HandlerCall.decoded (call : HandlerCall) : ℤ × List UInt8 :=
  (call.header.mType, call.payload)

/-- What a receiver is to make of the request. -/
def Request.decoded (request : Request) : ℤ × List UInt8 :=
  (request.packetType, request.payload.serialized)

/-- The handlers have seen exactly these requests, and nothing is left. -/
def Decoded (requests : List Request) (session : DummyClientSession) : Prop :=
  session.handlerCalls.map HandlerCall.decoded = requests.map Request.decoded ∧
    session.mRecvBuffer.contents = []

/-! ## The header -/

theorem toShort_emod (value : ℤ) : toShort (value % 2 ^ 16) = toShort value := by
  rw [toShort, toShort]
  exact_mod_cast Int.emod_bmod value 65536

theorem readShort_shortBytes_emod (value : ℤ) :
    readShort (UInt8.ofNat (value % 2 ^ 16).toNat) (UInt8.ofNat ((value % 2 ^ 16).toNat / 256)) =
      toShort value := by
  have bytes_eq : ((UInt8.ofNat (value % 2 ^ 16).toNat).toNat : ℤ) +
      256 * (UInt8.ofNat ((value % 2 ^ 16).toNat / 256)).toNat = value % 2 ^ 16 := by
    simp only [UInt8.toNat_ofNat']
    omega
  have read := congrArg toShort bytes_eq
  simp only [toShort_emod] at read
  exact read

theorem toShort_eq {value : ℤ} (lower : -2 ^ 15 ≤ value) (upper : value < 2 ^ 15) :
    toShort value = value :=
  Int.bmod_eq_of_le_mul_two (by omega) (by omega)

theorem toShort_toShort (value : ℤ) : toShort (toShort value) = toShort value :=
  Int.bmod_bmod

/-- The reader gets the header that has been written. -/
theorem ofBytes_toBytes (size : ℤ) {packetType : ℕ} (known : packetType < maxPktType) :
    PacketHeader.ofBytes (PacketHeader.mk (toShort size) packetType).toBytes =
      ⟨toShort size, packetType⟩ := by
  have small : packetType < 1024 := known
  have type_eq : toShort packetType = packetType := toShort_eq (by omega) (by omega)
  simp only [PacketHeader.toBytes, shortBytes, List.cons_append, List.nil_append,
    PacketHeader.ofBytes, readShort_shortBytes_emod, toShort_toShort, type_eq]

/-- A payload that does not fit makes the size negative. -/
theorem toShort_neg {size : ℕ} (large : 32767 < size) (size_lt : size < 2 ^ 16) :
    toShort size < 0 := by
  have wrapped : toShort size = size - 2 ^ 16 := by
    rw [toShort, ← Int.sub_bmod_right]
    apply Int.bmod_eq_of_le_mul_two <;> omega
  omega

/-- The packet of a request with a payload that fits. -/
def Request.packet (request : Request)
    (fits : request.payload.serialized.length ≤ 32767) : Packet :=
  ⟨request.packetType, request.payload.serialized, request.type_pos, request.type_lt, fits⟩

theorem Request.encode_packet (request : Request)
    (fits : request.payload.serialized.length ≤ 32767) :
    (request.packet fits).encode = request.bytes := by
  have size_eq : toShort request.payload.byteSize = request.payload.serialized.length :=
    toShort_eq (by rw [MessageLite.byteSize]; omega) (by rw [MessageLite.byteSize]; omega)
  have small : request.packetType < 1024 := request.type_lt
  have size_mod : ((request.payload.serialized.length : ℤ) % 2 ^ 16).toNat =
      request.payload.serialized.length := by omega
  have type_mod : ((request.packetType : ℤ) % 2 ^ 16).toNat = request.packetType := by omega
  simp only [Packet.encode, Request.bytes, Request.packet, PacketHeader.toBytes, size_eq, size_mod,
    type_mod]

/-- Requests whose payloads fit are packets. -/
theorem exists_packets {requests : List Request}
    (fit : ∀ request ∈ requests, request.payload.serialized.length ≤ 32767) :
    ∃ packets : List Packet, encodeAll packets = requests.flatMap Request.bytes ∧
      packets.map (fun packet => ((packet.mType : ℤ), packet.payload)) =
        requests.map Request.decoded := by
  induction requests with
  | nil => exact ⟨[], rfl, rfl⟩
  | cons request requests ih =>
      rcases List.forall_mem_cons.mp fit with ⟨fits, rest⟩
      rcases ih rest with ⟨packets, bytes_eq, decoded_eq⟩
      refine ⟨request.packet fits :: packets, ?_, ?_⟩
      · rw [encodeAll_cons, request.encode_packet, bytes_eq, List.flatMap_cons]
      · rw [List.map_cons, decoded_eq, List.map_cons]
        rfl

/-! ## The parse loop -/

namespace DummyClientSession

/-- The loop only adds calls. -/
theorem handlerCalls_grow (stream : CodedInputStream) (session : DummyClientSession) :
    session.handlerCalls <+: (onReceiveLoop stream session).handlerCalls := by
  fun_induction onReceiveLoop stream session with
  | case1 => exact List.prefix_rfl
  | case2 => exact List.prefix_rfl
  | case3 => exact List.prefix_rfl
  | case4 stream session _ _ _ _ _ _ _ _ _ _ ih => exact (List.prefix_append _ _).trans ih

/-- A dispatched header is among the calls. -/
theorem handlerCalls_of_read {stream payloadStream : CodedInputStream}
    {session : DummyClientSession} {bytes : List UInt8} {header : PacketHeader}
    (read : stream.readRaw session.mRecvBuffer.mBuffer headerSize = some (bytes, payloadStream))
    (isHeader : PacketHeader.ofBytes bytes = header)
    (complete : header.mSize ≤ payloadStream.getDirectBufferPointer.2)
    (known : 0 < header.mType ∧ header.mType < maxPktType) :
    session.handlerCalls ++ [session.handlerCall header payloadStream.getDirectBufferPointer.1] <+:
      (onReceiveLoop stream session).handlerCalls := by
  subst isHeader
  rw [onReceiveLoop_of_read session read complete known]
  refine List.IsPrefix.trans ?_ (handlerCalls_grow _ _)
  exact List.prefix_rfl

/-- A view of a negative size shows nothing. -/
theorem payload_handlerCall_of_neg {session : DummyClientSession} {header : PacketHeader}
    (negative : header.mSize < 0) (payloadPos : Option ℕ) :
    (session.handlerCall header payloadPos).payload = [] := by
  have nothing : header.mSize.toNat = 0 := Int.toNat_of_nonpos (by omega)
  simp only [handlerCall, nothing, Region.read_zero]
  split <;> rfl

/-- A request whose size is negative in the header is dispatched without its payload. -/
theorem onReceiveLoop_of_negative {stream : CodedInputStream} {session : DummyClientSession}
    {request : Request} {rest : List UInt8} (aligned : Aligned stream session.mRecvBuffer)
    (front : session.mRecvBuffer.bytesA = request.bytes ++ rest)
    (negative : toShort request.payload.byteSize < 0) :
    ∃ call, call.payload = [] ∧
      session.handlerCalls ++ [call] <+: (onReceiveLoop stream session).handlerCalls := by
  have lengths := request.length_bytes
  have enough : headerSize ≤ session.mRecvBuffer.mARegionSize := by
    rw [← length_bytesA, front, List.length_append]
    omega
  have header_read := readRaw_of_aligned aligned enough
  have header_eq : session.mRecvBuffer.bytesA.take headerSize =
      (PacketHeader.mk (toShort request.payload.byteSize) request.packetType).toBytes := by
    rw [front, Request.bytes, List.append_assoc]
    exact List.take_left' (PacketHeader.length_toBytes _)
  rw [header_eq] at header_read
  have type_pos := request.type_pos
  have type_lt := request.type_lt
  have isHeader := ofBytes_toBytes request.payload.byteSize type_lt
  refine ⟨_, ?_, handlerCalls_of_read header_read isHeader ?_ ?_⟩
  · apply payload_handlerCall_of_neg
    simpa only using negative
  · simp only
    omega
  · simp only
    omega

/-- The first request that does not fit comes behind the calls of those that do. -/
theorem onReceiveLoop_of_packets_negative (packets : List Packet) {request : Request}
    {rest : List UInt8} (negative : toShort request.payload.byteSize < 0)
    {stream : CodedInputStream} (session : DummyClientSession)
    (aligned : Aligned stream session.mRecvBuffer)
    (front : session.mRecvBuffer.bytesA = encodeAll packets ++ (request.bytes ++ rest)) :
    ∃ calls call, calls.length = packets.length ∧ call.payload = [] ∧
      session.handlerCalls ++ calls ++ [call] <+: (onReceiveLoop stream session).handlerCalls := by
  induction packets generalizing stream session with
  | nil =>
      rcases onReceiveLoop_of_negative aligned front negative with ⟨call, nothing, isPrefix⟩
      refine ⟨[], call, rfl, nothing, ?_⟩
      rwa [List.append_nil]
  | cons packet packets ih =>
      rw [encodeAll_cons, List.append_assoc] at front
      rcases onReceiveLoop_of_packet aligned front with ⟨first, _, round⟩
      have more : packet.encode.length < session.mRecvBuffer.mARegionSize := by
        have lengths := request.length_bytes
        have positive : 0 < headerSize := by decide
        simp only [← length_bytesA, front, List.length_append]
        omega
      have restFront := bytesA_remove front more
      rcases ih { session with
          mRecvBuffer := session.mRecvBuffer.remove packet.encode.length
          handlerCalls := session.handlerCalls ++ [first] } (aligned.remove more) restFront with
        ⟨calls, call, length_eq, nothing, isPrefix⟩
      refine ⟨first :: calls, call, by simp [length_eq], nothing, ?_⟩
      rw [round]
      simpa using isPrefix

end DummyClientSession

/-! ## The round trip -/

/-- Up to the first payload that does not fit. -/
theorem exists_first_large {requests : List Request}
    (someLarge : ¬∀ request ∈ requests, request.payload.serialized.length ≤ 32767) :
    ∃ front request rest, requests = front ++ request :: rest ∧
      (∀ earlier ∈ front, earlier.payload.serialized.length ≤ 32767) ∧
      32767 < request.payload.serialized.length := by
  induction requests with
  | nil => simp at someLarge
  | cons first requests ih =>
      by_cases fits : first.payload.serialized.length ≤ 32767
      · have later : ¬∀ request ∈ requests, request.payload.serialized.length ≤ 32767 := by
          intro all
          exact someLarge (List.forall_mem_cons.mpr ⟨fits, all⟩)
        rcases ih later with ⟨front, request, rest, split, fit, large⟩
        refine ⟨first :: front, request, rest, ?_, ?_, large⟩
        · rw [split, List.cons_append]
        · exact List.forall_mem_cons.mpr ⟨fits, fit⟩
      · exact ⟨[], first, requests, rfl, by simp, by omega⟩

/-- A new receive buffer, or any other, that holds just these bytes, in region A. -/
structure Presented (bytes : List UInt8) (session : DummyClientSession) : Prop where
  wellFormed : session.mRecvBuffer.WellFormed
  bytesA_eq : session.mRecvBuffer.bytesA = bytes
  bytesB_eq : session.mRecvBuffer.bytesB = []
  untouched : session.handlerCalls = []

namespace Presented

variable {requests : List Request} {bytes : List UInt8} {session : DummyClientSession}

theorem aligned (presented : Presented bytes session) :
    DummyClientSession.Aligned
      ⟨session.mRecvBuffer.getBufferStart, session.mRecvBuffer.getContiguiousBytes, 0⟩
      session.mRecvBuffer := by
  refine ⟨presented.wellFormed.getContiguiousBytes_eq, fun nonempty => ?_⟩
  exact ⟨session.mRecvBuffer.mARegionPointer, by simp [getBufferStart, nonempty], rfl⟩

theorem decoded (presented : Presented (requests.flatMap Request.bytes) session)
    (fit : ∀ request ∈ requests, request.payload.serialized.length ≤ 32767) :
    Decoded requests session.onReceive := by
  rcases exists_packets fit with ⟨packets, encoded, decoded_eq⟩
  rw [← encoded] at presented
  have all : arrived packets session.mRecvBuffer.mARegionSize = packets := by
    rw [← length_bytesA, presented.bytesA_eq]
    simpa [arrived] using arrived_append packets [] 0
  rcases DummyClientSession.onReceiveLoop_eq packets session presented.wellFormed presented.aligned
    (presented.bytesA_eq ▸ List.prefix_rfl) with ⟨calls, views, loop⟩
  rw [all] at views loop
  rw [Decoded, DummyClientSession.onReceive, loop]
  constructor
  · have seen := congrArg (List.map fun view => (view.1.mType, view.2)) views
    rw [List.map_map, List.map_map] at seen
    rw [← decoded_eq, presented.untouched, List.nil_append]
    exact seen
  · simp only
    rw [presented.wellFormed.contents_remove, contents, presented.bytesA_eq, presented.bytesB_eq]
    simp

/-- The first payload that does not fit is not seen. -/
theorem fit_of_decoded (presented : Presented (requests.flatMap Request.bytes) session)
    (large_lt : ∀ request ∈ requests, request.payload.serialized.length < 2 ^ 16)
    (decoded : Decoded requests session.onReceive) :
    ∀ request ∈ requests, request.payload.serialized.length ≤ 32767 := by
  by_contra someLarge
  rcases exists_first_large someLarge with ⟨front, request, rest, split, fit, large⟩
  have requestMem : request ∈ requests := by
    rw [split]
    exact List.mem_append_right _ List.mem_cons_self
  have negative : toShort request.payload.byteSize < 0 := toShort_neg large (large_lt _ requestMem)
  rcases exists_packets fit with ⟨packets, encoded, decoded_eq⟩
  have bytesA_eq := presented.bytesA_eq
  rw [split, List.flatMap_append, List.flatMap_cons, ← encoded] at bytesA_eq
  rcases DummyClientSession.onReceiveLoop_of_packets_negative packets negative session
    presented.aligned bytesA_eq with ⟨calls, call, length_eq, nothing, isPrefix⟩
  rw [presented.untouched, List.nil_append] at isPrefix
  have seen : (calls ++ [call]).map HandlerCall.decoded <+: requests.map Request.decoded := by
    rw [← decoded.1]
    exact isPrefix.map HandlerCall.decoded
  rcases seen with ⟨more, whole⟩
  rw [split, List.map_append, List.map_append, List.append_assoc, List.map_cons] at whole
  have sameLength :
      (calls.map HandlerCall.decoded).length = (front.map Request.decoded).length := by
    rw [← decoded_eq, List.length_map, List.length_map, length_eq]
  have same : call.decoded = request.decoded :=
    (List.cons.inj (List.append_inj whole sameLength).2).1
  have payload_eq : call.payload = request.payload.serialized := congrArg Prod.snd same
  rw [← payload_eq, nothing, List.length_nil] at large
  omega

end Presented

/-- The bytes that a run of calls has committed are decoded as the requests that
it has accepted exactly when no accepted payload is too large for a `short`. -/
theorem decoded_iff_fitsShort {first last : Sender} {steps : List (Sender × SendAction)}
    (run : sending.Run first steps last) (initial : sending.Initial first)
    {receiver : DummyClientSession} (presented : Presented last.committed receiver) :
    Decoded last.accepted receiver.onReceive ↔ ∀ step ∈ steps, FitsShort step.1 step.2 := by
  have invariant := Sender.Invariant.of_reachable ⟨first, steps, initial, run⟩
  rw [invariant.committed_eq] at presented
  rw [← accepted_fit_iff run initial]
  exact ⟨presented.fit_of_decoded invariant.accepted_lt, presented.decoded⟩

/-- Any bytes can be presented. -/
theorem exists_presented {bytes : List UInt8} (length_lt : bytes.length < 2 ^ 64) :
    ∃ receiver, Presented bytes receiver := by
  rcases Nat.eq_zero_or_pos bytes.length with empty | positive
  · cases List.eq_nil_of_length_eq_zero empty
    exact ⟨.connected fun _ => 0, .construct _ (by decide), rfl, rfl, rfl⟩
  · refine ⟨⟨⟨Region.write (fun _ => 0) 0 bytes, bytes.length, 0, bytes.length, none, 0,
      bytes.length⟩, true, 0, []⟩, ?_, Region.read_write_self .., rfl, rfl⟩
    constructor
    · rfl
    · exact length_lt
    · exact (Nat.zero_add _).le
    · exact fun empty => absurd empty positive.ne'
    · exact fun _ => rfl
    · nofun

theorem one_lt_maxPktType : 1 < maxPktType := by
  decide

/-- A request with so many payload bytes. -/
def zeros (count : ℕ) (count_le : count ≤ 2 ^ 31 - 1) : Request where
  packetType := 1
  payload := ⟨List.replicate count 0, by rwa [List.length_replicate]⟩
  type_pos := Nat.one_pos
  type_lt := one_lt_maxPktType

/-- A new session sends one request that is not too large for the buffer. -/
theorem exists_run_zeros {count : ℕ} (count_le : count ≤ 65532) : ∃ request first last steps,
    request.payload.serialized = List.replicate count 0 ∧ sending.Initial first ∧
      sending.Run first steps last ∧ last.accepted = [request] ∧
      last.committed.length < 2 ^ 64 := by
  have count_small : count ≤ 2 ^ 31 - 1 := by omega
  have initial : sending.Initial
      ⟨⟨.construct (fun _ => 0) DummyClientSession.clientBufSize, true, 0⟩, [], []⟩ :=
    ⟨_, _, rfl⟩
  have invariant := Sender.Invariant.initially initial
  have accepts : SendingSession.Accepts
      ⟨.construct (fun _ => 0) DummyClientSession.clientBufSize, true, 0⟩
      (zeros count count_small) := by
    refine ⟨rfl, ?_⟩
    have free_eq : (construct (fun _ => 0) DummyClientSession.clientBufSize).getFreeSpaceSize.1 =
        65536 := by decide
    rw [free_eq]
    simp only [zeros, List.length_replicate, headerSize]
    omega
  have accepted_eq := (invariant.sendRequest (zeros count count_small)).2.1 accepts
  have committed_eq := (invariant.sendRequest (zeros count count_small)).1.committed_eq
  refine ⟨_, _, _, _, rfl, initial, (Machine.Run.nil _).snoc rfl, accepted_eq, ?_⟩
  rw [committed_eq, accepted_eq]
  simp only [List.nil_append, List.flatMap_cons, List.flatMap_nil, List.append_nil,
    Request.length_bytes, zeros, List.length_replicate, headerSize]
  omega

/-- A request of three bytes. -/
theorem decoded_iff_fitsShort_three : ∃ first last steps receiver, sending.Initial first ∧
    sending.Run first steps last ∧ last.accepted.length = 1 ∧ Presented last.committed receiver ∧
      (Decoded last.accepted receiver.onReceive ↔ ∀ step ∈ steps, FitsShort step.1 step.2) := by
  rcases @exists_run_zeros 3 (by decide) with
    ⟨request, first, last, steps, _, initial, run, accepted_eq, length_lt⟩
  rcases exists_presented length_lt with ⟨receiver, presented⟩
  refine ⟨first, last, steps, receiver, initial, run, ?_, presented,
    decoded_iff_fitsShort run initial presented⟩
  rw [accepted_eq]
  rfl

/-- A request of 32768 bytes is accepted and not decoded. -/
theorem not_always_decoded : ¬∀ first last steps receiver, sending.Initial first →
    sending.Run first steps last → Presented last.committed receiver →
      Decoded last.accepted receiver.onReceive := by
  intro always
  rcases @exists_run_zeros 32768 (by decide) with
    ⟨request, first, last, steps, payload_eq, initial, run, accepted_eq, length_lt⟩
  rcases exists_presented length_lt with ⟨receiver, presented⟩
  have decoded := always first last steps receiver initial run presented
  have invariant := Sender.Invariant.of_reachable ⟨first, steps, initial, run⟩
  rw [invariant.committed_eq] at presented
  have fits :=
    presented.fit_of_decoded invariant.accepted_lt decoded request (by simp [accepted_eq])
  rw [payload_eq, List.length_replicate] at fits
  omega

end Gsp.DummyClient
