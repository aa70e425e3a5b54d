import Gsp.DummyClient.Receive
import Gsp.MyPacket.RoundTrip

/-!
# The handlers of packets

`PacketHandler.cpp` with the handlers that `OnReceive` calls. A handler is given
the header and a stream over the payload; what it prints is kept as lines, and it
may ask the session to disconnect. `OnReceive` goes on with the packets that have
arrived, and the next `PostRecv` fails.

The lines of a run are those that the format gives to the packets that are done.
-/

namespace Gsp.MyPacket

open Gsp.DummyClient Gsp.Protobuf Wire Generated MessageLite

/-- What handlers print. -/
inductive Line where
  | defaultHandler (mType : ℤ)
  | loginSuccess (playerId : Int32) (playerName : List UInt8) (x y z : UInt32)
deriving DecidableEq

/-- What a handler has printed, and its stream and its session behind the call. -/
structure Handled where
  lines : List Line
  payloadStream : Protobuf.CodedInputStream
  session : DummyClientSession

/-- None if a check fails. -/
abbrev HandlerFunc : Type :=
  PacketHeader → Protobuf.CodedInputStream → DummyClientSession → Option Handled

/-- `DefaultHandler`. -/
def defaultHandler : HandlerFunc := fun header payloadStream session =>
  some ⟨[.defaultHandler header.mType], payloadStream, session⟩

/-- What is printed of a login; a name is printed up to its first zero. -/
def loginLine (loginResult : LoginResult) : Line :=
  let pos := loginResult.playerPos.getD construct
  .loginSuccess (loginResult.playerId.getD 0)
    ((loginResult.playerName.getD []).takeWhile (· ≠ 0))
    (pos.x.getD 0) (pos.y.getD 0) (pos.z.getD 0)

/-- `Handler_PKT_SC_LOGIN`. -/
def handlerScLogin : HandlerFunc := fun _ payloadStream session =>
  match parseFromCodedStream (construct : LoginResult) payloadStream with
  | .returned loginResult payloadStream => some ⟨[loginLine loginResult], payloadStream, session⟩
  | .failed payloadStream => some ⟨[], payloadStream, session.disconnectRequest⟩
  | .undefined => none

/-- `HandlerTable` with the handlers that are registered. -/
def handlerTable (mType : ℤ) : HandlerFunc :=
  if mType = PacketType.scLogin.code then handlerScLogin else defaultHandler

/-- A session with what its handlers have printed. -/
structure Client where
  session : DummyClientSession
  printed : List Line

namespace Client

/-- The handler of a packet, with the stream over the payload. -/
def dispatch (client : Client) (header : PacketHeader) (payloadPos : Option ℕ) : Option Client :=
  let payload := (client.session.handlerCall header payloadPos).payload
  (handlerTable header.mType header (.construct (.construct payload (-1)))
      (client.session.callHandler header payloadPos)).bind fun handled =>
    handled.payloadStream.backUpInputToCurrentPosition.map fun _ =>
      ⟨handled.session, client.printed ++ handled.lines⟩

/-- The `while` loop of `OnReceive`. -/
def onReceiveLoop (stream : DummyClient.CodedInputStream) (client : Client) : Option Client :=
  match headerRead : stream.readRaw client.session.mRecvBuffer.mBuffer headerSize with
  | none => some client
  | some (bytes, payloadStream) =>
      let header := PacketHeader.ofBytes bytes
      let (payloadPos, payloadSize) := payloadStream.getDirectBufferPointer
      if (payloadSize : ℤ) < header.mSize then some client
      else if (maxPktType : ℤ) ≤ header.mType ∨ header.mType ≤ 0 then
        some { client with session := client.session.disconnectRequest }
      else
        (client.dispatch header payloadPos).bind fun handled =>
          onReceiveLoop (payloadStream.skip header.mSize)
            { handled with session := { handled.session with
                mRecvBuffer := handled.session.mRecvBuffer.remove
                  (Word.ofInt64 (headerSize + header.mSize)) } }
termination_by stream.size - stream.position
decreasing_by
  rcases CodedInputStream.readRaw_eq_some headerRead with ⟨enough, next, _⟩
  have skipped := payloadStream.skip_remaining_le (PacketHeader.ofBytes bytes).mSize
  subst next
  simp only [headerSize] at enough skipped ⊢
  omega

/-- `OnReceive`. -/
def onReceive (client : Client) : Option Client :=
  onReceiveLoop
    ⟨client.session.mRecvBuffer.getBufferStart, client.session.mRecvBuffer.getContiguiousBytes, 0⟩
    client

/-- `RecvCompletion`. -/
def recvCompletion (client : Client) (transferred : ℕ) : Option Client :=
  (onReceive { client with session := { client.session with
      mRecvBuffer := client.session.mRecvBuffer.commit transferred } }).map fun received =>
    { received with session := { received.session with
        mRecvTotal := received.session.mRecvTotal + transferred } }

end Client

/-- One receive after the other, until a handler has asked to disconnect. -/
def handling (packets : List Packet) : Machine Client ℕ where
  Initial client := ∃ raw, client = ⟨.connected raw, []⟩
  Step client count after :=
    ∃ len position posted, client.session.postRecv = some ((len, position), posted) ∧
      0 < count ∧ count ≤ len ∧
      client.session.mRecvTotal + count ≤ (encodeAll packets).length ∧
      Client.recvCompletion ⟨posted.deliver position
        (((encodeAll packets).drop client.session.mRecvTotal).take count), client.printed⟩ count =
          some after

/-! ## What a handler makes of a packet -/

/-- By the format, the line of a packet; none if its handler disconnects. -/
def meaning (view : PacketHeader × List UInt8) : Option Line :=
  if view.1.mType = PacketType.scLogin.code then
    (LoginResult.schema.parse isInitialized construct view.2).map loginLine
  else some (.defaultHandler view.1.mType)

/-- The handlers run on the calls that a session has recorded. -/
def Client.replay (session : DummyClientSession) : Client where
  session :=
    { session with
      mConnected := session.mConnected &&
        session.handlerCalls.all fun call => (meaning call.view).isSome }
  printed := session.handlerCalls.filterMap fun call => meaning call.view

theorem readShort_le (low high : UInt8) : readShort low high ≤ 32767 := by
  have upper : readShort low high < (2 ^ 16 + 1) / 2 := Int.bmod_lt (Nat.two_pow_pos 16)
  omega

/-- A header never asks for more than a `short` can hold. -/
theorem mSize_ofBytes_le (bytes : List UInt8) : (PacketHeader.ofBytes bytes).mSize ≤ 32767 := by
  fun_cases PacketHeader.ofBytes bytes with
  | case1 sizeLow sizeHigh =>
      simp only
      exact readShort_le sizeLow sizeHigh
  | case2 =>
      simp only
      omega

/-- The stream over a payload can be destroyed unread. -/
theorem backUp_construct {data : List UInt8}
    (short : data.length < CodedInputStream.kDefaultTotalBytesLimit) :
    (Protobuf.CodedInputStream.construct (.construct data
      (-1))).backUpInputToCurrentPosition.isSome :=
  (inside_construct short (-1)).1.coherent.releasable.backUp

namespace Client

variable (session : DummyClientSession)

/-- One more call. -/
theorem replay_callHandler (header : PacketHeader) (payloadPos : Option ℕ) :
    replay (session.callHandler header payloadPos) =
      ⟨{ session.callHandler header payloadPos with
          mConnected := (replay session).session.mConnected &&
            (meaning (session.handlerCall header payloadPos).view).isSome },
        (replay session).printed ++
          (meaning (session.handlerCall header payloadPos).view).toList⟩ := by
  have last : [session.handlerCall header payloadPos].filterMap (fun call => meaning call.view) =
      (meaning (session.handlerCall header payloadPos).view).toList := by
    cases line : meaning (session.handlerCall header payloadPos).view <;> simp [line]
  simp only [replay, DummyClientSession.callHandler, List.filterMap_append, List.all_append,
    List.all_cons, List.all_nil, Bool.and_true, Bool.and_assoc, last]

/-- A handler does what the format gives to the payload. -/
theorem dispatch_replay {header : PacketHeader} (small : header.mSize ≤ 32767)
    (payloadPos : Option ℕ) :
    (replay session).dispatch header payloadPos =
      some (replay (session.callHandler header payloadPos)) := by
  have length_le : (session.handlerCall header payloadPos).payload.length ≤ 32767 := by
    cases payloadPos with
    | none => exact Nat.zero_le _
    | some pointer =>
        rw [DummyClientSession.handlerCall, Region.length_read]
        omega
  have short : (session.handlerCall header payloadPos).payload.length <
      CodedInputStream.kDefaultTotalBytesLimit :=
    length_le.trans_lt (by decide)
  have replayed : (replay session).session.handlerCall header payloadPos =
      session.handlerCall header payloadPos := rfl
  have view_eq : (session.handlerCall header payloadPos).view =
      (header, (session.handlerCall header payloadPos).payload) := rfl
  rw [replay_callHandler, view_eq, dispatch, replayed, handlerTable, meaning]
  by_cases login : header.mType = PacketType.scLogin.code
  · rcases exists_parsed .loginResult construct short (-1) with ⟨last, releasable, returned⟩
    rcases Option.isSome_iff_exists.mp releasable.backUp with ⟨destroyed, backUp_eq⟩
    have printed_eq : parsed .loginResult construct
          (session.handlerCall header payloadPos).payload (-1) =
        parseFromCodedStream (construct : LoginResult) (.construct
          (.construct (session.handlerCall header payloadPos).payload (-1))) := rfl
    rw [if_pos login, if_pos login, handlerScLogin, ← printed_eq, returned]
    rcases format : LoginResult.schema.parse isInitialized construct
      (session.handlerCall header payloadPos).payload with _ | loginResult
    · have refused : MessageName.loginResult.schema.parse isInitialized
          (clear (construct : LoginResult)) (session.handlerCall header payloadPos).payload =
            none :=
        format
      simp only [refused, Option.bind_some, backUp_eq, Option.map_some, Option.map_none,
        Option.isSome_none, Bool.and_false, Option.toList_none]
      rfl
    · have read : MessageName.loginResult.schema.parse isInitialized
          (clear (construct : LoginResult)) (session.handlerCall header payloadPos).payload =
            some loginResult :=
        format
      simp only [read, Option.bind_some, backUp_eq, Option.map_some, Option.isSome_some,
        Bool.and_true, Option.toList_some]
      rfl
  · rcases Option.isSome_iff_exists.mp (backUp_construct short) with ⟨destroyed, backUp_eq⟩
    rw [if_neg login, if_neg login]
    simp only [defaultHandler, Option.bind_some, backUp_eq, Option.map_some, Option.isSome_some,
      Bool.and_true, Option.toList_some]
    rfl

/-- The loop with handlers does what recording their calls and running them afterwards does. -/
theorem onReceiveLoop_replay (stream : DummyClient.CodedInputStream) :
    onReceiveLoop stream (replay session) =
      some (replay (DummyClientSession.onReceiveLoop stream session)) := by
  fun_induction DummyClientSession.onReceiveLoop stream session with
  | case1 stream session unread =>
      rw [onReceiveLoop]
      split
      · rfl
      · next actual => cases unread.symm.trans actual
  | case2 stream session bytes payloadStream read header _ _ pointer_eq incomplete =>
      rw [onReceiveLoop]
      split
      · rfl
      · next actual =>
          cases read.symm.trans actual
          simp only [pointer_eq]
          rw [if_pos incomplete]
  | case3 stream session bytes payloadStream read header _ _ pointer_eq complete unknown =>
      rw [onReceiveLoop]
      split
      · next unread => cases read.symm.trans unread
      · next actual =>
          cases read.symm.trans actual
          simp only [pointer_eq]
          rw [if_neg complete, if_pos unknown]
          rfl
  | case4 stream session bytes payloadStream read header payloadPos _ pointer_eq complete known _
      ih =>
      rw [onReceiveLoop]
      split
      · next unread => cases read.symm.trans unread
      · next actual =>
          cases read.symm.trans actual
          simp only [pointer_eq]
          rw [if_neg complete, if_neg known,
            dispatch_replay session (mSize_ofBytes_le bytes) payloadPos, Option.bind_some]
          exact ih

/-- A session that handles its bytes replays the stream. -/
theorem recvCompletion_replay (transferred : ℕ) :
    (replay session).recvCompletion transferred =
      some (replay (session.recvCompletion transferred)) := by
  have received := onReceiveLoop_replay
    { session with mRecvBuffer := session.mRecvBuffer.commit transferred }
    ⟨(session.mRecvBuffer.commit transferred).getBufferStart,
      (session.mRecvBuffer.commit transferred).getContiguiousBytes, 0⟩
  exact congrArg (Option.map fun received : Client =>
    { received with session := { received.session with
        mRecvTotal := received.session.mRecvTotal + transferred } }) received

end Client

/-! ## Runs -/

section Runs

open Client

variable {packets done rest : List Packet} {session : DummyClientSession}

/-- As long as no handler has asked to disconnect, the steps are those of receiving. -/
theorem handling_step_iff (progress : Progress packets done rest session)
    (connected : (replay session).session.mConnected = true) {count : ℕ} {after : Client} :
    (handling packets).Step (replay session) count after ↔
      ∃ next, (receiving packets).Step session count next ∧ after = replay next := by
  have accepted : (session.handlerCalls.all fun call => (meaning call.view).isSome) = true := by
    simpa only [replay, progress.connected, Bool.true_and] using connected
  have same : (replay session).session = session := by
    simp only [replay, accepted, Bool.and_true]
  have delivered {len position : ℕ} {posted : DummyClientSession}
      (postRecv : session.postRecv = some ((len, position), posted)) (bytes : List UInt8) :
      ⟨posted.deliver position bytes, (replay session).printed⟩ =
        replay (posted.deliver position bytes) := by
    rw [progress.postRecv_eq, Option.ite_none_left_eq_some, Option.some.injEq,
      Prod.mk.injEq] at postRecv
    rcases postRecv with ⟨_, _, rfl⟩
    simp only [replay, DummyClientSession.deliver, accepted, Bool.and_true]
  constructor
  · rintro ⟨len, position, posted, postRecv, positive, count_le, inside, completed⟩
    rw [same] at postRecv inside completed
    rw [delivered postRecv, recvCompletion_replay, Option.some.injEq] at completed
    exact ⟨_, ⟨len, position, posted, postRecv, positive, count_le, inside, rfl⟩, completed.symm⟩
  · rintro ⟨next, ⟨len, position, posted, postRecv, positive, count_le, inside, rfl⟩, rfl⟩
    refine ⟨len, position, posted, ?_, positive, count_le, ?_, ?_⟩
    · rw [same]
      exact postRecv
    · rw [same]
      exact inside
    · rw [same, delivered postRecv, recvCompletion_replay]

/-- The handlers of a run have been run on the calls of a run that records them. -/
theorem exists_replay {client : Client} (reachable : (handling packets).Reachable client) :
    ∃ session done rest, Progress packets done rest session ∧ client = replay session := by
  apply reachable.invariant
  · rintro first ⟨raw, rfl⟩
    exact ⟨_, [], packets, progress_connected packets raw, rfl⟩
  · rintro before count after _ ⟨session, done, rest, progress, rfl⟩ step
    have connected : (replay session).session.mConnected = true := by
      rcases step with ⟨len, position, posted, postRecv, _⟩
      by_contra refused
      rw [DummyClientSession.postRecv, if_pos (Bool.eq_false_of_not_eq_true refused)] at postRecv
      cases postRecv
    rcases (handling_step_iff progress connected).mp step with ⟨next, received, rfl⟩
    rcases progress.step received with ⟨done, rest, progress⟩
    exact ⟨next, done, rest, progress, rfl⟩

/-- The lines of a session that has handled the packets that are done. -/
theorem printed_replay (progress : Progress packets done rest session) :
    (replay session).printed = done.filterMap (fun packet => meaning packet.view) ∧
      (replay session).session.mConnected =
        (done.all fun packet => (meaning packet.view).isSome) := by
  have lines : session.handlerCalls.map (fun call => meaning call.view) =
      done.map fun packet => meaning packet.view := by
    have views := congrArg (List.map meaning) progress.called
    rw [List.map_map, List.map_map] at views
    exact views
  constructor
  · have printed := congrArg (List.filterMap id) lines
    rw [List.filterMap_map, List.filterMap_map, Function.id_comp, Function.id_comp] at printed
    exact printed
  · have connected := congrArg (List.all · Option.isSome) lines
    simp only [List.all_map] at connected
    simp only [replay, progress.connected, Bool.true_and]
    exact connected

/-- Whatever bytes the packets have, the lines of a run are those that the format gives
to the packets that are done, and the session is connected as long as it can read
them; then it can go on receiving. -/
theorem printed_of_reachable {client : Client} (reachable : (handling packets).Reachable client) :
    ∃ done rest, packets = done ++ rest ∧
      client.printed = done.filterMap (fun packet => meaning packet.view) ∧
      client.session.mConnected = (done.all fun packet => (meaning packet.view).isSome) ∧
      client.session.mRecvTotal =
        (encodeAll done).length + client.session.mRecvBuffer.contents.length ∧
      client.session.mRecvBuffer.contents <+: encodeAll rest ∧
      (client.session.mConnected = true →
        ∀ count, 0 < count → count ≤ client.session.mRecvBuffer.getFreeSpaceSize.1 →
          client.session.mRecvTotal + count ≤ (encodeAll packets).length →
          ∃ after, (handling packets).Step client count after) := by
  rcases exists_replay reachable with ⟨session, done, rest, progress, rfl⟩
  rcases printed_replay progress with ⟨printed, readable⟩
  refine ⟨done, rest, progress.split, printed, readable, progress.total, progress.front, ?_⟩
  intro connected count positive fits inside
  rcases progress.exists_step positive fits inside with ⟨next, step⟩
  exact ⟨replay next, (handling_step_iff progress connected).mpr ⟨next, step, rfl⟩⟩

/-- A packet that a peer can have sent, with the line for it. -/
inductive Carries : Packet → Line → Prop where
  | login {packet : Packet} {loginResult : LoginResult}
      (type_eq : packet.mType = PacketType.scLogin.code)
      (initialized : isInitialized loginResult)
      (payload_eq : packet.payload = LoginResult.schema.encode loginResult) :
      Carries packet (loginLine loginResult)
  | other {packet : Packet} (type_ne : packet.mType ≠ PacketType.scLogin.code) :
      Carries packet (.defaultHandler packet.mType)

/-- A packet that carries a line means it. -/
theorem meaning_of_carries {packet : Packet} {line : Line} (carries : Carries packet line) :
    meaning packet.view = some line := by
  cases carries with
  | other type_ne =>
      have no_login : (packet.view.1.mType : ℤ) ≠ PacketType.scLogin.code :=
        fun login => type_ne (Int.ofNat_inj.mp login)
      rw [meaning, if_neg no_login]
      rfl
  | @login loginResult type_eq initialized payload_eq =>
      have login : (packet.mType : ℤ) = PacketType.scLogin.code := congrArg Int.ofNat type_eq
      have fits : (LoginResult.schema.encode loginResult).length ≤ intMax := by
        have size_le := packet.size_le
        rw [payload_eq] at size_le
        exact size_le.trans (by decide)
      have read : LoginResult.schema.read CodedInputStream.defaultRecursionLimit construct
          packet.payload = some ((LoginResult.schema.merge construct loginResult, .atEnd), []) := by
        have merged := @MessageName.loginResult.lawful.read_encode _
          CodedInputStream.defaultRecursionLimit _ _ (construct : LoginResult) loginResult
          (by decide) fits []
        rw [List.append_nil, Schema.read_nil] at merged
        rw [payload_eq]
        exact merged
      have merged_initialized :
          isInitialized (LoginResult.schema.merge construct loginResult) = true := by
        have sizes_eq := MessageName.loginResult.cacheSizes_merge construct loginResult
        rw [← MessageName.loginResult.isInitialized_cacheSizes] at initialized ⊢
        rw [← initialized]
        exact congrArg isInitialized sizes_eq
      have line_eq : loginLine (LoginResult.schema.merge construct loginResult) =
          loginLine loginResult := by
        rcases loginResult with ⟨_ | _, _ | _, _ | ⟨_ | _, _ | _, _ | _, _⟩, _⟩ <;> rfl
      rw [meaning, Packet.view, Packet.header_mType, if_pos login, Schema.parse, read]
      simp only [merged_initialized, if_true, Option.map_some, line_eq]

theorem map_meaning_of_carries {lines : List Line} (carries : List.Forall₂ Carries packets lines) :
    packets.map (fun packet => meaning packet.view) = lines.map some := by
  induction carries with
  | nil => rfl
  | cons first _ ih => rw [List.map_cons, List.map_cons, meaning_of_carries first, ih]

/-- Packets that all mean something are handled and printed. -/
theorem handled_of_meanings {lines : List Line}
    (meanings : packets.map (fun packet => meaning packet.view) = lines.map some) :
    packets.filterMap (fun packet => meaning packet.view) = lines ∧
      packets.all (fun packet => (meaning packet.view).isSome) = true := by
  constructor
  · have somes := congrArg (List.filterMap id) meanings
    rwa [List.filterMap_map, List.filterMap_map, Function.id_comp, Function.id_comp,
      List.filterMap_some] at somes
  · have readable := congrArg (List.all · Option.isSome) meanings
    simp only [List.all_map] at readable
    exact readable.trans (List.all_eq_true.mpr fun _ _ => rfl)

/-- Every packet is handled for what the peer has put into it, in order, and no handler
disconnects; when all bytes have been received and handled, so have all packets. -/
theorem printed_of_carries {lines : List Line} (carries : List.Forall₂ Carries packets lines)
    {client : Client} (reachable : (handling packets).Reachable client) :
    client.session.mConnected = true ∧ client.printed <+: lines ∧
      (client.session.mRecvTotal = (encodeAll packets).length →
        client.session.mRecvBuffer.contents = [] → client.printed = lines) := by
  have meanings := map_meaning_of_carries carries
  rcases exists_replay reachable with ⟨session, done, rest, progress, rfl⟩
  rcases printed_replay progress with ⟨printed_eq, connected_eq⟩
  have total_eq : (replay session).session.mRecvTotal =
      (encodeAll done).length + (replay session).session.mRecvBuffer.contents.length :=
    progress.total
  rw [progress.split, List.map_append, List.append_eq_map_iff] at meanings
  rcases meanings with ⟨done_lines, rest_lines, rfl, done_eq, rest_eq⟩
  rcases handled_of_meanings done_eq.symm with ⟨lines_eq, readable⟩
  have printed : (replay session).printed = done_lines := printed_eq.trans lines_eq
  refine ⟨?_, ?_, ?_⟩
  · exact connected_eq.trans readable
  · rw [printed]
    exact List.prefix_append _ _
  · intro all_received nothing_left
    rw [all_received, nothing_left, progress.split, encodeAll_append,
      List.length_append] at total_eq
    cases rest with
    | nil => rw [printed, List.map_eq_nil_iff.mp rest_eq, List.append_nil]
    | cons packet rest =>
        rw [encodeAll_cons, List.length_append, packet.length_encode, headerSize,
          List.length_nil] at total_eq
        omega

/-- A login at the origin. -/
def origin : LoginResult := ⟨some 121, some [97], some ⟨some 0, some 0, some 0, 0⟩, 0⟩

theorem length_origin : (LoginResult.schema.encode origin).length = 22 := by
  have fits : min (byteSize origin) (LoginResult.schema.encode origin).length ≤ intMax :=
    (Nat.min_le_left _ _).trans (by decide)
  have size_eq := MessageName.loginResult.serializesAs.byteSize_eq fits
  exact size_eq.symm.trans (by decide)

/-- The answer to a login, as a packet. -/
def originPacket : Packet where
  mType := 2
  payload := LoginResult.schema.encode origin
  type_pos := by decide
  type_lt := by decide
  size_le := length_origin.le.trans (by decide)

/-- Two packets in two completions: both have been handled. -/
theorem printed_of_reachable_twoPackets :
    ∃ second last, (handling [emptyPacket, originPacket]).Run ⟨.connected fun _ => 0, []⟩
        [(⟨.connected fun _ => 0, []⟩, 10), (second, 20)] last ∧
      last.printed = [.defaultHandler 1, .loginSuccess 121 [97] 0 0 0] ∧
      last.session.mConnected = true := by
  let packets := [emptyPacket, originPacket]
  have length_packet : originPacket.encode.length = 26 := by
    rw [originPacket.length_encode, originPacket, length_origin, headerSize]
  have lengths : (encodeAll packets).length = 30 := by
    simp [packets, length_packet, length_emptyPacket]
  have arrivedFirst : arrived packets 10 = [emptyPacket] := by
    simp [packets, arrived, length_packet, length_emptyPacket]
  have arrivedLast : arrived packets 30 = packets := by
    simp [packets, arrived, length_packet, length_emptyPacket]
  have whole : (encodeAll (arrived packets (4 + 6))).length = 4 := by
    rw [arrivedFirst]
    simp [length_emptyPacket]
  have start := progress_connected packets fun _ => 0
  rcases start.exists_step (show 0 < 10 by decide) (by decide) (by rw [lengths]; decide) with
    ⟨second, firstStep⟩
  rcases step_more whole (by decide) firstStep with ⟨_, _, withoutB, total⟩
  have window := window_more whole (by decide) firstStep
  rw [if_neg (by decide)] at window
  have outside : ∀ count, EndsOutsideB packets second count := by
    intro count inB
    rw [window, withoutB] at inB
    cases inB
  have reachable : (receiving packets).Reachable (.connected fun _ => 0) := .ofInitial ⟨_, rfl⟩
  have dispatchedFirst := (start.dispatched_step rfl firstStep).mpr (fun inB => by cases inB)
  rcases progress_of_reachable (reachable.step firstStep) with ⟨done, rest, progress⟩
  rcases progress.exists_step (show 0 < 20 by decide) (by simp [window])
    (by rw [lengths, total]) with ⟨last, lastStep⟩
  have dispatchedLast := (progress.dispatched_step dispatchedFirst lastStep).mpr (outside 20)
  have carries : List.Forall₂ Carries packets [.defaultHandler 1, loginLine origin] :=
    .cons (.other (by decide)) (.cons (.login rfl (by decide) rfl) .nil)
  rcases handled_of_meanings (map_meaning_of_carries carries) with ⟨lines, readable⟩
  have connected : (replay second).session.mConnected = true := by
    rw [(printed_replay progress).2]
    refine List.all_eq_true.mpr fun packet packetMem => List.all_eq_true.mp readable packet ?_
    rw [progress.split]
    exact List.mem_append_left _ packetMem
  have handledFirst := (handling_step_iff start rfl).mpr ⟨second, firstStep, rfl⟩
  have handledLast := (handling_step_iff progress connected).mpr ⟨last, lastStep, rfl⟩
  have run := ((Machine.Run.nil _).snoc handledFirst).snoc handledLast
  have allTotal : last.mRecvTotal = 30 := by
    rcases progress.step_eq lastStep with ⟨_, _, _, _, _, _, rfl⟩
    exact congrArg (· + 20) total
  rcases progress.step lastStep with ⟨doneLast, restLast, progressLast⟩
  have allDone := progressLast.arrived_eq
  rw [progressLast.dispatched_iff.mp dispatchedLast, allTotal, arrivedLast, List.append_nil]
    at allDone
  have nothingLeft : last.mRecvBuffer.contents.length = 0 := by
    have all := progressLast.total
    rw [allTotal, ← allDone, lengths] at all
    omega
  have reached : (handling packets).Reachable (replay last) :=
    .step (.step (.ofInitial ⟨_, rfl⟩) handledFirst) handledLast
  rcases printed_of_reachable reached with ⟨handled, waiting, split, printed, open_, all, _, _⟩
  have isAll : handled = packets := by
    have bytes : 30 = (encodeAll handled).length := by
      rw [← allTotal, ← Nat.add_zero (encodeAll handled).length, ← nothingLeft]
      exact all
    rw [split, encodeAll_append, List.length_append, ← bytes] at lengths
    cases waiting with
    | nil => rw [split, List.append_nil]
    | cons packet waiting =>
        rw [encodeAll_cons, List.length_append, packet.length_encode, headerSize] at lengths
        omega
  rw [isAll] at printed open_
  exact ⟨_, _, run, printed.trans lines, open_.trans readable⟩

theorem printed_of_carries_origin :
    ∃ after, (handling [originPacket]).Step ⟨.connected fun _ => 0, []⟩ 26 after ∧
      after.session.mConnected = true ∧ after.printed <+: [.loginSuccess 121 [97] 0 0 0] := by
  have length_eq : (encodeAll [originPacket]).length = 26 := by
    rw [encodeAll_cons, encodeAll_nil, List.append_nil, originPacket.length_encode, originPacket,
      length_origin, headerSize]
  have start := progress_connected [originPacket] fun _ => 0
  rcases start.exists_step (show 0 < 26 by decide) (by decide) length_eq.ge with ⟨next, step⟩
  have handled := (handling_step_iff start rfl).mpr ⟨next, step, rfl⟩
  have reachable : (handling [originPacket]).Reachable (.replay next) :=
    .step (.ofInitial ⟨_, rfl⟩) handled
  have carries : List.Forall₂ Carries [originPacket] [loginLine origin] :=
    .cons (.login rfl (by decide) rfl) .nil
  rcases printed_of_carries carries reachable with ⟨connected, printed, _⟩
  exact ⟨_, handled, connected, printed⟩

end Runs

end Gsp.MyPacket
