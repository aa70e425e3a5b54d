import Gsp.DummyClient.Framing
import Gsp.Lib.Machine

/-!
# Sending requests

`DummyClientSession::SendRequest` and the requests that one session accepts, with
whatever is taken out of its send buffer in between. The bytes that the accepted
requests commit are the bytes of their headers and payloads, one after the other.

`ByteSize` is the number of bytes that `SerializeToCodedStream` writes.
-/

namespace Gsp.DummyClient

open Gsp.CircularBuffer

/-- A message by its serialized bytes, whose number is an `int`. -/
structure MessageLite where
  serialized : List UInt8
  size_le : serialized.length ≤ 2 ^ 31 - 1

/-- `ByteSize`. -/
def MessageLite.byteSize (payload : MessageLite) : ℤ := payload.serialized.length

/-- An `int` assigned to a `short`. -/
def toShort (value : ℤ) : ℤ := value.bmod (2 ^ 16)

/-- The header as `WriteRaw` writes it. -/
def PacketHeader.toBytes (header : PacketHeader) : List UInt8 :=
  shortBytes (header.mSize % 2 ^ 16).toNat ++ shortBytes (header.mType % 2 ^ 16).toNat

/-- The sending part of a session, and how often it is in `LSendRequestSessionList`. -/
structure SendingSession where
  mSendBuffer : CircularBuffer
  mConnected : Bool
  requested : ℕ

namespace SendingSession

/-- `SendRequest`. -/
def sendRequest (packetType : ℤ) (payload : MessageLite) (session : SendingSession) :
    Bool × SendingSession :=
  if session.mConnected = false then (false, session)
  else
    let totalSize := Word.wrap32 (payload.byteSize + headerSize)
    let (free, buffer) := session.mSendBuffer.getFreeSpaceSize
    if free < Word.ofInt64 totalSize then (false, { session with mSendBuffer := buffer })
    else
      let header : PacketHeader := ⟨toShort payload.byteSize, packetType⟩
      let written := buffer.store (header.toBytes ++ payload.serialized)
      (true, { session with
        mSendBuffer := written.commit (Word.ofInt64 totalSize)
        requested := session.requested + 1 })

end SendingSession

/-- The arguments of a call. -/
structure Request where
  packetType : ℕ
  payload : MessageLite
  type_pos : 0 < packetType
  type_lt : packetType < maxPktType

/-- What happens to a sender. -/
inductive SendAction where
  | sendRequest (request : Request)
  /-- Bytes that have been sent leave the buffer. -/
  | remove (count : ℕ)
  | setConnected (connected : Bool)

/-- A session with the requests it has accepted and the bytes these have committed. -/
structure Sender where
  session : SendingSession
  accepted : List Request
  committed : List UInt8

namespace Sender

/-- What a commit has added stands at the end of the buffer. -/
def step (sender : Sender) : SendAction → Sender
  | .sendRequest request =>
      let (done, session) := sender.session.sendRequest request.packetType request.payload
      if done then
        { session := session
          accepted := sender.accepted ++ [request]
          committed := sender.committed ++
            session.mSendBuffer.contents.drop sender.session.mSendBuffer.contents.length }
      else { sender with session := session }
  | .remove count =>
      { sender with session :=
        { sender.session with mSendBuffer := sender.session.mSendBuffer.remove count } }
  | .setConnected connected =>
      { sender with session := { sender.session with mConnected := connected } }

end Sender

/-- A new session with empty buffers. -/
def sending : Machine Sender SendAction where
  Initial sender := ∃ raw connected, sender =
    ⟨⟨.construct raw DummyClientSession.clientBufSize, connected, 0⟩, [], []⟩
  Step sender action after := after = sender.step action

/-! ## What is committed -/

/-- The bytes that a request commits. -/
def Request.bytes (request : Request) : List UInt8 :=
  (PacketHeader.mk (toShort request.payload.byteSize) request.packetType).toBytes ++
    request.payload.serialized

@[simp]
theorem PacketHeader.length_toBytes (header : PacketHeader) : header.toBytes.length = headerSize :=
  rfl

theorem Request.length_bytes (request : Request) :
    request.bytes.length = headerSize + request.payload.serialized.length := by
  rw [Request.bytes, List.length_append, PacketHeader.length_toBytes]

/-- The calls that return true. -/
def SendingSession.Accepts (session : SendingSession) (request : Request) : Prop :=
  session.mConnected = true ∧
    headerSize + request.payload.serialized.length ≤ session.mSendBuffer.getFreeSpaceSize.1

namespace SendingSession

variable {session : SendingSession} {request : Request}

/-- `totalSize` as a `size_t`, unless the sum is too large for an `int`. -/
theorem ofInt64_totalSize {payload : MessageLite}
    (fits : headerSize + payload.serialized.length ≤ 2 ^ 31 - 1) :
    Word.ofInt64 (Word.wrap32 (payload.byteSize + headerSize)) =
      headerSize + payload.serialized.length := by
  have total_eq : payload.byteSize + headerSize =
      ((headerSize + payload.serialized.length : ℕ) : ℤ) := by
    rw [MessageLite.byteSize]
    omega
  rw [total_eq, Word.wrap32_eq (by omega) (by omega)]
  exact Word.ofInt64_natCast (by omega)

/-- A sum that is too large wraps to a negative one, which as a `size_t` is larger
than any buffer. -/
theorem lt_ofInt64_totalSize {payload : MessageLite} {free : ℕ} (free_lt : free < 2 ^ 31)
    (large : 2 ^ 31 - 1 < headerSize + payload.serialized.length) :
    free < Word.ofInt64 (Word.wrap32 (payload.byteSize + headerSize)) := by
  have size_le := payload.size_le
  have headerSize_eq : headerSize = 4 := rfl
  have wrapped : Word.wrap32 (payload.byteSize + headerSize) =
      payload.byteSize + headerSize - 2 ^ 32 := by
    rw [Word.wrap32, MessageLite.byteSize, ← Int.sub_bmod_right]
    apply Int.bmod_eq_of_le_mul_two <;> omega
  rw [wrapped, Word.ofInt64, MessageLite.byteSize]
  omega

theorem getFreeSpaceSize_le (wellFormed : session.mSendBuffer.WellFormed)
    (capacity : session.mSendBuffer.mCapacity = DummyClientSession.clientBufSize) :
    session.mSendBuffer.getFreeSpaceSize.1 ≤ 65536 := by
  have inside := wellFormed.getFreeSpaceSize.window_inside wellFormed.offered_getFreeSpaceSize
  rw [capacity_getFreeSpaceSize, capacity, DummyClientSession.clientBufSize] at inside
  omega

theorem sendRequest_of_accepts (accepts : session.Accepts request)
    (free_le : session.mSendBuffer.getFreeSpaceSize.1 ≤ 65536) :
    session.sendRequest request.packetType request.payload =
      (true, { session with
        mSendBuffer := (session.mSendBuffer.getFreeSpaceSize.2.store request.bytes).commit
          request.bytes.length
        requested := session.requested + 1 }) := by
  rcases accepts with ⟨connected, enough⟩
  have total_eq := @ofInt64_totalSize request.payload (by omega)
  simp only [sendRequest, connected, Bool.true_eq_false, if_false, total_eq, Request.length_bytes]
  exact if_neg (by omega)

/-- A refused request leaves the buffer's contents as they are. -/
theorem sendRequest_of_refused (refused : ¬session.Accepts request)
    (free_le : session.mSendBuffer.getFreeSpaceSize.1 ≤ 65536) :
    session.sendRequest request.packetType request.payload = (false, session) ∨
      session.sendRequest request.packetType request.payload =
        (false, { session with mSendBuffer := session.mSendBuffer.getFreeSpaceSize.2 }) := by
  by_cases connected : session.mConnected = true
  · right
    have short : session.mSendBuffer.getFreeSpaceSize.1 <
        Word.ofInt64 (Word.wrap32 (request.payload.byteSize + headerSize)) := by
      by_cases large : 2 ^ 31 - 1 < headerSize + request.payload.serialized.length
      · exact lt_ofInt64_totalSize (by omega) large
      · rw [ofInt64_totalSize (by omega)]
        by_contra enough
        exact refused ⟨connected, by omega⟩
    simp only [sendRequest, connected, Bool.true_eq_false, if_false]
    exact if_pos short
  · left
    simp only [sendRequest]
    exact if_pos (by simpa using connected)

end SendingSession

/-- What has been committed are the bytes of the accepted requests. -/
structure Sender.Invariant (sender : Sender) : Prop where
  wellFormed : sender.session.mSendBuffer.WellFormed
  capacity : sender.session.mSendBuffer.mCapacity = DummyClientSession.clientBufSize
  accepted_lt : ∀ request ∈ sender.accepted, request.payload.serialized.length < 2 ^ 16
  committed_eq : sender.committed = sender.accepted.flatMap Request.bytes

namespace Sender.Invariant

variable {sender : Sender}

theorem initially (initial : sending.Initial sender) : sender.Invariant := by
  rcases initial with ⟨raw, connected, rfl⟩
  exact ⟨.construct raw (by decide), rfl, by simp, rfl⟩

/-- A request is accepted with all its bytes, or not at all. -/
theorem sendRequest (invariant : sender.Invariant) (request : Request) :
    (sender.step (.sendRequest request)).Invariant ∧
      (sender.session.Accepts request →
        (sender.step (.sendRequest request)).accepted = sender.accepted ++ [request]) ∧
      (¬sender.session.Accepts request →
        (sender.step (.sendRequest request)).accepted = sender.accepted) := by
  rcases invariant with ⟨wellFormed, capacity, accepted_lt, committed_eq⟩
  have free_le := SendingSession.getFreeSpaceSize_le wellFormed capacity
  have queried := wellFormed.getFreeSpaceSize
  by_cases accepts : sender.session.Accepts request
  · have sent := SendingSession.sendRequest_of_accepts accepts free_le
    have fits : request.bytes.length ≤ sender.session.mSendBuffer.getFreeSpaceSize.1 := by
      rw [request.length_bytes]
      exact accepts.2
    have offered := wellFormed.offered_getFreeSpaceSize
    have contents_eq := queried.contents_store_commit offered fits
    rw [wellFormed.contents_getFreeSpaceSize] at contents_eq
    simp only [Sender.step, sent, if_true]
    refine ⟨⟨queried.store_commit offered fits, ?_, ?_, ?_⟩, fun _ => trivial, absurd accepts⟩
    · simp [capacity]
    · rw [request.length_bytes, headerSize] at fits
      exact List.forall_mem_append.mpr ⟨accepted_lt, List.forall_mem_singleton.mpr (by omega)⟩
    · simp only [contents_eq, List.drop_left, committed_eq, List.flatMap_append, List.flatMap_cons,
        List.flatMap_nil, List.append_nil]
  · rcases SendingSession.sendRequest_of_refused accepts free_le with sent | sent
    · simp only [Sender.step, sent, Bool.false_eq_true, if_false]
      exact ⟨⟨wellFormed, capacity, accepted_lt, committed_eq⟩,
        fun now => absurd now accepts, fun _ => trivial⟩
    · simp only [Sender.step, sent, Bool.false_eq_true, if_false]
      refine ⟨⟨queried, ?_, accepted_lt, committed_eq⟩,
        fun now => absurd now accepts, fun _ => trivial⟩
      simp [capacity]

theorem step (invariant : sender.Invariant) (action : SendAction) :
    (sender.step action).Invariant := by
  cases action with
  | sendRequest request => exact (invariant.sendRequest request).1
  | remove count =>
      refine ⟨invariant.wellFormed.remove count, ?_, invariant.accepted_lt, invariant.committed_eq⟩
      simpa [Sender.step] using invariant.capacity
  | setConnected connected =>
      exact ⟨invariant.wellFormed, invariant.capacity, invariant.accepted_lt,
        invariant.committed_eq⟩

theorem of_reachable (reachable : sending.Reachable sender) : sender.Invariant :=
  reachable.invariant (fun _ => .initially)
    (fun _ action _ _ invariant step => step ▸ invariant.step action)

end Sender.Invariant

/-- The call is refused, or the size of its payload fits a `short`. -/
def FitsShort (sender : Sender) : SendAction → Prop
  | .sendRequest request =>
      sender.session.Accepts request → request.payload.serialized.length ≤ 32767
  | _ => True

/-- All accepted payloads fit a `short` exactly when each call does. -/
theorem accepted_fit_iff {first last : Sender} {steps : List (Sender × SendAction)}
    (run : sending.Run first steps last) (initial : sending.Initial first) :
    (∀ request ∈ last.accepted, request.payload.serialized.length ≤ 32767) ↔
      ∀ step ∈ steps, FitsShort step.1 step.2 := by
  induction run with
  | nil =>
      rcases initial with ⟨_, _, rfl⟩
      simp
  | @snoc middle last steps action run step ih =>
      have invariant := Sender.Invariant.of_reachable ⟨_, steps, initial, run⟩
      simp only [List.forall_mem_append, List.forall_mem_singleton, ← ih]
      cases step
      cases action with
      | sendRequest request =>
          rcases invariant.sendRequest request with ⟨_, taken, refused⟩
          by_cases accepts : middle.session.Accepts request
          · simp only [taken accepts, List.forall_mem_append, List.forall_mem_singleton, FitsShort,
              accepts, forall_const]
          · simp only [refused accepts, FitsShort, accepts, IsEmpty.forall_iff, and_true]
      | remove => simp only [FitsShort, and_true, Sender.step]
      | setConnected => simp only [FitsShort, and_true, Sender.step]

end Gsp.DummyClient
