import Gsp.DummyClient.SendRequest
import Gsp.MyPacket.RoundTrip

/-!
# Sending messages

`SendRequest` with the streams through which it writes a message into the send
buffer. It does what `sendRequest` does with the bytes that the format has for
the message.
-/

namespace Gsp.MyPacket

open Gsp.DummyClient Gsp.Protobuf Wire Generated

/-- What serializing does not depend on the sizes that are cached. -/
theorem MessageName.cached (name : MessageName) (message : name.Message) :
    name.schema.encode (cacheSizes message) = name.schema.encode message ∧
      byteSize (cacheSizes message) = byteSize message := by
  cases name with
  | loginRequest => rcases message with ⟨_ | _, _⟩ <;> exact ⟨rfl, rfl⟩
  | position => rcases message with ⟨_ | _, _ | _, _ | _, _⟩ <;> exact ⟨rfl, rfl⟩
  | loginResult =>
      rcases message with ⟨_ | _, _ | _, _ | ⟨_ | _, _ | _, _ | _, _⟩, _⟩ <;> exact ⟨rfl, rfl⟩
  | chatRequest => rcases message with ⟨_ | _, _ | _, _⟩ <;> exact ⟨rfl, rfl⟩
  | chatResult => rcases message with ⟨_ | _, _ | _, _⟩ <;> exact ⟨rfl, rfl⟩
  | moveRequest =>
      rcases message with ⟨_ | _, _ | ⟨_ | _, _ | _, _ | _, _⟩, _⟩ <;> exact ⟨rfl, rfl⟩
  | moveResult =>
      rcases message with ⟨_ | _, _ | ⟨_ | _, _ | _, _ | _, _⟩, _⟩ <;> exact ⟨rfl, rfl⟩

/-- `SendRequest`; none if a check of the serialization fails. -/
def sendMessage (name : MessageName) (packetType : ℤ) (payload : name.Message)
    (session : SendingSession) : Option (Bool × name.Message × SendingSession) :=
  if session.mConnected = false then some (false, payload, session)
  else
    let totalSize := Word.wrap32 (byteSize payload + headerSize)
    let payload := cacheSizes payload
    let (free, buffer) := session.mSendBuffer.getFreeSpaceSize
    if free < Word.ofInt64 totalSize then
      some (false, payload, { session with mSendBuffer := buffer })
    else
      let header : PacketHeader := ⟨toShort (byteSize payload), packetType⟩
      let window := Region.read buffer.mBuffer buffer.getBuffer totalSize.toNat
      (serialized name payload header.toBytes window (-1)).map
        fun (_, payload, codedOutputStream) =>
          (true, payload, { session with
            mSendBuffer :=
              (buffer.store codedOutputStream.data).commit (Word.ofInt64 totalSize)
            requested := session.requested + 1 })

/-- `Login` with the next value of its counter. -/
def login (id : Int32) (session : SendingSession) :
    Option (Bool × LoginRequest × SendingSession) :=
  sendMessage .loginRequest PacketType.csLogin.code ⟨some id, 0⟩ session

/-- A window that has just the room for the header and the message. -/
theorem serialized_window (name : MessageName) {message : name.Message} {header window : List UInt8}
    (initialized : isInitialized message) (fits : byteSize message ≤ intMax)
    (length_eq : window.length = header.length + byteSize message) :
    ∃ next, serialized name (cacheSizes message) header window (-1) =
        some (true, cacheSizes (cacheSizes message), next) ∧
      next.data = header ++ name.schema.encode message := by
  rcases name.cached message with ⟨encode_eq, byteSize_eq⟩
  have cached_initialized : isInitialized (cacheSizes message) = true := by
    rw [name.isInitialized_cacheSizes]
    exact initialized
  have size_eq := @MessageName.length_encode name (cacheSizes message) (byteSize_eq ▸ fits)
  rcases exists_serialized name cached_initialized (byteSize_eq ▸ fits)
    (show header.length ≤ window.length by omega) (-1) with ⟨next, written, data_eq⟩
  have all : (header ++ name.schema.encode message).length = window.length := by
    rw [List.length_append, ← encode_eq, size_eq, byteSize_eq, length_eq]
  rw [byteSize_eq, ← length_eq, decide_eq_true le_rfl] at written
  rw [encode_eq, byteSize_eq, ← length_eq, List.drop_length, List.append_nil, ← all,
    List.take_length] at data_eq
  exact ⟨next, written, data_eq⟩

theorem wrap32_totalSize {size : ℕ} (fits : headerSize + size ≤ intMax) :
    Word.wrap32 ((size : ℤ) + headerSize) = ((headerSize + size : ℕ) : ℤ) := by
  rw [intMax] at fits
  rw [Word.wrap32_eq (by omega) (by omega)]
  omega

theorem ofInt64_totalSize {size : ℕ} (fits : headerSize + size ≤ intMax) :
    Word.ofInt64 (Word.wrap32 ((size : ℤ) + headerSize)) = headerSize + size := by
  rw [wrap32_totalSize fits]
  rw [intMax] at fits
  apply Word.ofInt64_natCast
  omega

/-- With room for it the message goes into the buffer behind its header. -/
theorem sendMessage_of_room (name : MessageName) {message : name.Message}
    (initialized : isInitialized message) (fits : headerSize + byteSize message ≤ intMax)
    (packetType : ℤ) {session : SendingSession} (connected : session.mConnected = true)
    (room : headerSize + byteSize message ≤ session.mSendBuffer.getFreeSpaceSize.1) :
    ∃ sized, sendMessage name packetType message session =
      some (true, sized, { session with
        mSendBuffer := (session.mSendBuffer.getFreeSpaceSize.2.store
          ((PacketHeader.mk (toShort (byteSize message)) packetType).toBytes ++
            name.schema.encode message)).commit (headerSize + byteSize message)
        requested := session.requested + 1 }) := by
  have total_eq := wrap32_totalSize fits
  have word_eq := ofInt64_totalSize fits
  have window_length (memory : ℕ → UInt8) (start : ℕ) (header : PacketHeader) :
      (Region.read memory start (headerSize + byteSize message)).length =
        header.toBytes.length + byteSize message := by
    rw [Region.length_read, PacketHeader.length_toBytes]
  have message_fits : byteSize message ≤ intMax := (Nat.le_add_left _ _).trans fits
  rcases serialized_window name initialized message_fits (window_length
    session.mSendBuffer.getFreeSpaceSize.2.mBuffer
    session.mSendBuffer.getFreeSpaceSize.2.getBuffer
    ⟨toShort (byteSize message), packetType⟩) with ⟨next, written, data_eq⟩
  rw [sendMessage, connected, if_neg Bool.true_eq_false.mp]
  rw [total_eq] at word_eq
  simp only [total_eq, word_eq, if_neg (Nat.not_lt.mpr room), Int.toNat_natCast,
    (name.cached message).2, written, data_eq, Option.map_some]
  exact ⟨_, rfl⟩

/-- `SendRequest` leaves the header and the bytes of the format in the send buffer, in
every state that a session can be in. -/
theorem sendMessage_eq {sender : Sender} (reachable : sending.Reachable sender)
    (name : MessageName) {message : name.Message} (initialized : isInitialized message)
    (fits : byteSize message ≤ intMax) (packetType : ℤ) :
    ∃ payload : DummyClient.MessageLite, payload.serialized = name.schema.encode message ∧
      ∃ sized, sendMessage name packetType message sender.session =
        some ((sender.session.sendRequest packetType payload).1, sized,
          (sender.session.sendRequest packetType payload).2) := by
  have size_eq := @name.serializesAs.byteSize_eq _ _ _ message ((Nat.min_le_left _ _).trans fits)
  obtain ⟨payload, payload_eq⟩ : ∃ payload : DummyClient.MessageLite,
      payload.serialized = name.schema.encode message :=
    ⟨⟨name.schema.encode message, size_eq ▸ fits⟩, rfl⟩
  refine ⟨payload, payload_eq, ?_⟩
  have invariant := Sender.Invariant.of_reachable reachable
  have free_le := SendingSession.getFreeSpaceSize_le invariant.wellFormed invariant.capacity
  have length_eq : payload.serialized.length = byteSize message := by rw [payload_eq, size_eq]
  have byteSize_eq : payload.byteSize = byteSize message := by
    rw [DummyClient.MessageLite.byteSize, length_eq]
  rw [SendingSession.sendRequest, byteSize_eq]
  by_cases connected : sender.session.mConnected = false
  · rw [sendMessage, if_pos connected, if_pos connected]
    exact ⟨message, rfl⟩
  · by_cases short : sender.session.mSendBuffer.getFreeSpaceSize.1 <
        Word.ofInt64 (Word.wrap32 ((byteSize message : ℤ) + headerSize))
    · rw [sendMessage, if_neg connected, if_neg connected]
      simp only [if_pos short]
      exact ⟨cacheSizes message, rfl⟩
    · have total_le : headerSize + byteSize message ≤ intMax := by
        by_contra large
        have refused := @SendingSession.lt_ofInt64_totalSize payload _
          (free_le.trans_lt (by decide)) (by rw [length_eq]; exact Nat.lt_of_not_le large)
        rw [byteSize_eq] at refused
        exact short refused
      rw [ofInt64_totalSize total_le] at short
      rw [if_neg connected]
      simp only [ofInt64_totalSize total_le, if_neg short, payload_eq]
      exact sendMessage_of_room name initialized total_le packetType
        (Bool.eq_true_of_not_eq_false connected) (Nat.not_lt.mp short)

/-- The first login of a new session. -/
theorem sendMessage_eq_login :
    ∃ payload : DummyClient.MessageLite,
      payload.serialized = MessageName.loginRequest.schema.encode ⟨some 121, 0⟩ ∧
      ∃ sized, login 121 ⟨.construct (fun _ => 0) DummyClientSession.clientBufSize, true, 0⟩ =
        some ((SendingSession.sendRequest 1 payload
            ⟨.construct (fun _ => 0) DummyClientSession.clientBufSize, true, 0⟩).1, sized,
          (SendingSession.sendRequest 1 payload
            ⟨.construct (fun _ => 0) DummyClientSession.clientBufSize, true, 0⟩).2) :=
  @sendMessage_eq ⟨⟨.construct (fun _ => 0) DummyClientSession.clientBufSize, true, 0⟩, [], []⟩
    (.ofInitial ⟨fun _ => 0, true, rfl⟩) .loginRequest ⟨some 121, 0⟩ (by decide) (by decide) 1

end Gsp.MyPacket
