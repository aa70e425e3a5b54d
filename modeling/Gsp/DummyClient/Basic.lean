import Gsp.CircularBuffer.Basic

/-!
# Receiving in the dummy client

`PacketInterface.h`, `DummyClientSession::OnReceive` and the receiving part of
`Session` of the dummy client, with what they use of the vendored
`CodedInputStream` over one `ArrayInputStream`. A stream is a view of the block
of the receive buffer: reads look at the block as it is when they are made.

Handlers are recorded instead of run; they are assumed to leave the session
alone. `short` is 16 bits wide and stored least significant byte first.
-/

namespace Gsp.DummyClient

/-- The header of a packet, two shorts. -/
structure PacketHeader where
  mSize : ℤ
  mType : ℤ
deriving DecidableEq

/-- `sizeof(PacketHeader)`. -/
def headerSize : ℕ := 4

/-- `MAX_PKT_TYPE`. -/
def maxPktType : ℕ := 1024

/-- Two bytes as a `short`. -/
def readShort (low high : UInt8) : ℤ :=
  Int.bmod (low.toNat + 256 * high.toNat) (2 ^ 16)

/-- The header as `ReadRaw` fills it; the constructor's values otherwise. -/
def PacketHeader.ofBytes : List UInt8 → PacketHeader
  | [sizeLow, sizeHigh, typeLow, typeHigh] =>
      ⟨readShort sizeLow sizeHigh, readShort typeLow typeHigh⟩
  | _ => ⟨0, -1⟩

/-- `CodedInputStream` over an array of `size` bytes at `data`. -/
structure CodedInputStream where
  data : Option ℕ
  size : ℕ
  position : ℕ

namespace CodedInputStream

/-- `ReadRaw`; nothing if fewer bytes are left. -/
def readRaw (stream : CodedInputStream) (memory : ℕ → UInt8) (count : ℕ) :
    Option (List UInt8 × CodedInputStream) :=
  if stream.size - stream.position < count then none
  else
    match stream.data with
    | none => none
    | some data =>
        some (Region.read memory (data + stream.position) count,
          { stream with position := stream.position + count })

/-- The rest of the array; at its end the outputs keep their initial values. -/
def getDirectBufferPointer (stream : CodedInputStream) : Option ℕ × ℕ :=
  if stream.size - stream.position = 0 then (none, 0)
  else (stream.data.map (· + stream.position), stream.size - stream.position)

/-- Skipping a negative count fails without moving; skipping too far stops at the end. -/
def skip (stream : CodedInputStream) (count : ℤ) : CodedInputStream :=
  if count < 0 then stream
  else { stream with position := min stream.size (stream.position + count.toNat) }

theorem readRaw_eq_some {stream next : CodedInputStream} {memory : ℕ → UInt8} {count : ℕ}
    {bytes : List UInt8} (read : stream.readRaw memory count = some (bytes, next)) :
    count ≤ stream.size - stream.position ∧
      next = { stream with position := stream.position + count } ∧
      ∃ data, stream.data = some data ∧
        bytes = Region.read memory (data + stream.position) count := by
  rcases stream with ⟨data, size, position⟩
  cases data with
  | none => simp [readRaw] at read
  | some data =>
      simp only [readRaw, Option.ite_none_left_eq_some, Option.some.injEq, Prod.mk.injEq] at read
      rcases read with ⟨enough, rfl, rfl⟩
      exact ⟨by simpa using enough, rfl, data, rfl, rfl⟩

theorem skip_natCast (stream : CodedInputStream) (count : ℕ) :
    stream.skip count = { stream with position := min stream.size (stream.position + count) } := by
  simp only [skip, Int.toNat_natCast]
  rw [if_neg (by omega)]

theorem skip_remaining_le (stream : CodedInputStream) (count : ℤ) :
    (stream.skip count).size - (stream.skip count).position ≤ stream.size - stream.position := by
  simp only [skip]
  split
  · exact le_rfl
  · simp only
    omega

end CodedInputStream

/-- One call of the handler table: the header, where the payload view starts
and the bytes seen through it. -/
structure HandlerCall where
  header : PacketHeader
  payloadPos : Option ℕ
  payload : List UInt8

/-- The session, with the handler calls made so far. -/
structure DummyClientSession where
  mRecvBuffer : CircularBuffer
  mConnected : Bool
  mRecvTotal : ℕ
  handlerCalls : List HandlerCall

namespace DummyClientSession

/-- `CLIENT_BUFSIZE`. -/
def clientBufSize : ℕ := 65536

/-- A session that has just connected. -/
def connected (raw : ℕ → UInt8) : DummyClientSession where
  mRecvBuffer := .construct raw clientBufSize
  mConnected := true
  mRecvTotal := 0
  handlerCalls := []

/-- What the parser can see of `DisconnectRequest`. -/
def disconnectRequest (session : DummyClientSession) : DummyClientSession :=
  { session with mConnected := false }

/-- The call with the header and the payload seen through the view. -/
def handlerCall (session : DummyClientSession) (header : PacketHeader)
    (payloadPos : Option ℕ) : HandlerCall where
  header := header
  payloadPos := payloadPos
  payload :=
    match payloadPos with
    | none => []
    | some pointer => Region.read session.mRecvBuffer.mBuffer pointer header.mSize.toNat

/-- `HandlerTable[mType](this, packetheader, payloadInputStream)`. -/
def callHandler (session : DummyClientSession) (header : PacketHeader)
    (payloadPos : Option ℕ) : DummyClientSession :=
  { session with
    handlerCalls := session.handlerCalls ++ [session.handlerCall header payloadPos] }

/-- The `while` loop of `OnReceive`. -/
def onReceiveLoop (stream : CodedInputStream) (session : DummyClientSession) :
    DummyClientSession :=
  match headerRead : stream.readRaw session.mRecvBuffer.mBuffer headerSize with
  | none => session
  | some (bytes, payloadStream) =>
      let header := PacketHeader.ofBytes bytes
      let (payloadPos, payloadSize) := payloadStream.getDirectBufferPointer
      if (payloadSize : ℤ) < header.mSize then session
      else if (maxPktType : ℤ) ≤ header.mType ∨ header.mType ≤ 0 then
        session.disconnectRequest
      else
        let handled := session.callHandler header payloadPos
        onReceiveLoop (payloadStream.skip header.mSize)
          { handled with
            mRecvBuffer :=
              handled.mRecvBuffer.remove (Word.ofInt64 (headerSize + header.mSize)) }
termination_by stream.size - stream.position
decreasing_by
  rcases CodedInputStream.readRaw_eq_some headerRead with ⟨enough, next, _⟩
  have skipped := payloadStream.skip_remaining_le (PacketHeader.ofBytes bytes).mSize
  subst next
  simp only [headerSize] at enough skipped ⊢
  omega

/-- `OnReceive`. -/
def onReceive (session : DummyClientSession) : DummyClientSession :=
  onReceiveLoop ⟨session.mRecvBuffer.getBufferStart, session.mRecvBuffer.getContiguiousBytes, 0⟩
    session

/-- `PostRecv`: the window handed to `WSARecv` as length and position, if there is one. -/
def postRecv (session : DummyClientSession) : Option ((ℕ × ℕ) × DummyClientSession) :=
  if session.mConnected = false then none
  else
    let (free, buffer) := session.mRecvBuffer.getFreeSpaceSize
    if free = 0 then none
    else
      let (len, buffer) := buffer.getFreeSpaceSize
      some ((Word.toUInt32 len, buffer.getBuffer), { session with mRecvBuffer := buffer })

/-- The bytes of a completed `WSARecv`, stored in the window it was given. -/
def deliver (session : DummyClientSession) (position : ℕ) (bytes : List UInt8) :
    DummyClientSession :=
  { session with
    mRecvBuffer :=
      { session.mRecvBuffer with
        mBuffer := Region.write session.mRecvBuffer.mBuffer position bytes } }

/-- `RecvCompletion`. -/
def recvCompletion (session : DummyClientSession) (transferred : ℕ) : DummyClientSession :=
  let received := { session with mRecvBuffer := session.mRecvBuffer.commit transferred }.onReceive
  { received with mRecvTotal := received.mRecvTotal + transferred }

end DummyClientSession

end Gsp.DummyClient
