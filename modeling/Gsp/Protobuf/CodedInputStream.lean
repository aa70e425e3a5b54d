import Gsp.Lib.Linked

/-!
# Reading from a coded stream

`ArrayInputStream`, `CodedInputStream` over it and the skipping of fields in
`WireFormatLite`. A buffer is the list of the bytes between `buffer_` and
`buffer_end_`; the bytes after a limit are kept beside it. An `int` that is never
negative is a natural number, and warnings about large messages are left out.

A call that returns false keeps its stream. A call is undefined if it reads past
`buffer_end_`, or if a loop over the fields of a message does not end.
-/

namespace Gsp.Protobuf

/-- `INT_MAX`. -/
def intMax : ℕ := 2 ^ 31 - 1

/-! ## ArrayInputStream -/

/-- `ArrayInputStream`: an array that is handed out in blocks. -/
structure ArrayInputStream where
  data : List UInt8
  blockSize : ℕ
  position : ℕ
  lastReturnedSize : ℕ
  blockSize_pos : data ≠ [] → 0 < blockSize

namespace ArrayInputStream

theorem pos_of_default {data : List UInt8} {blockSize : ℤ} (nonempty : data ≠ []) :
    0 < if 0 < blockSize then blockSize.toNat else data.length := by
  split
  · omega
  · exact List.length_pos_of_ne_nil nonempty

/-- The constructor. -/
def construct (data : List UInt8) (blockSize : ℤ) : ArrayInputStream where
  data := data
  blockSize := if 0 < blockSize then blockSize.toNat else data.length
  position := 0
  lastReturnedSize := 0
  blockSize_pos := pos_of_default

/-- `Next`: the next block. -/
def next (stream : ArrayInputStream) : Option (List UInt8) × ArrayInputStream :=
  if stream.position < stream.data.length then
    let size := min stream.blockSize (stream.data.length - stream.position)
    (some ((stream.data.drop stream.position).take size),
      { stream with lastReturnedSize := size, position := stream.position + size })
  else (none, { stream with lastReturnedSize := 0 })

/-- None if one of the checks fails. -/
def backUp (stream : ArrayInputStream) (count : ℕ) : Option ArrayInputStream :=
  if 0 < stream.lastReturnedSize ∧ count ≤ stream.lastReturnedSize then
    some { stream with position := stream.position - count, lastReturnedSize := 0 }
  else none

/-- `Skip`. -/
def skip (stream : ArrayInputStream) (count : ℕ) : Bool × ArrayInputStream :=
  if stream.data.length - stream.position < count then
    (false, { stream with lastReturnedSize := 0, position := stream.data.length })
  else (true, { stream with lastReturnedSize := 0, position := stream.position + count })

/-- The bytes that have not been returned. -/
def remaining (stream : ArrayInputStream) : List UInt8 := stream.data.drop stream.position

end ArrayInputStream

/-! ## CodedInputStream -/

/-- `CodedInputStream`, with the bytes it holds in place of its pointers. -/
structure CodedInputStream where
  input : ArrayInputStream
  /-- The bytes from `buffer_` to `buffer_end_`. -/
  buffer : List UInt8
  /-- The `buffer_size_after_limit_` bytes after `buffer_end_`. -/
  afterLimit : List UInt8
  totalBytesRead : ℕ
  overflowBytes : ℕ
  lastTag : UInt32
  legitimateMessageEnd : Bool
  currentLimit : ℕ
  totalBytesLimit : ℕ
  recursionDepth : ℕ
  recursionLimit : ℕ

/-- What a call does to its stream. -/
inductive Outcome (α : Type) where
  | returned (value : α) (stream : CodedInputStream)
  | failed (stream : CodedInputStream)
  | undefined

/-- Code that reads from a stream. -/
def Reader (α : Type) : Type := CodedInputStream → Outcome α

/-- A call that returns false ends its caller. -/
instance : Monad Reader where
  pure value stream := .returned value stream
  bind read next stream :=
    match read stream with
    | .returned value stream => next value stream
    | .failed stream => .failed stream
    | .undefined => .undefined

namespace CodedInputStream

/-- `kDefaultTotalBytesLimit`. -/
def kDefaultTotalBytesLimit : ℕ := 64 * 2 ^ 20

/-- `default_recursion_limit_`. -/
def defaultRecursionLimit : ℕ := 100

/-- `kMaxVarintBytes`. -/
def kMaxVarintBytes : ℕ := 10

/-- `kMaxVarint32Bytes`. -/
def kMaxVarint32Bytes : ℕ := 5

/-- The end of a read that cannot go on. -/
def fail {α : Type} : Reader α := fun stream => .failed stream

/-- `BufferSize`. -/
def bufferSize (stream : CodedInputStream) : ℕ := stream.buffer.length

/-- `CurrentPosition`. -/
def currentPosition (stream : CodedInputStream) : ℕ :=
  stream.totalBytesRead - (stream.bufferSize + stream.afterLimit.length)

/-- `Advance`. -/
def advance (stream : CodedInputStream) (amount : ℕ) : CodedInputStream :=
  { stream with buffer := stream.buffer.drop amount }

/-- `RecomputeBufferLimits`: the bytes after the closest limit are set aside. -/
def recomputeBufferLimits (stream : CodedInputStream) : CodedInputStream :=
  let whole := stream.buffer ++ stream.afterLimit
  let closestLimit := min stream.currentLimit stream.totalBytesLimit
  if closestLimit < stream.totalBytesRead then
    let size := whole.length - (stream.totalBytesRead - closestLimit)
    { stream with buffer := whole.take size, afterLimit := whole.drop size }
  else { stream with buffer := whole, afterLimit := [] }

/-- Returns the old limit. -/
def pushLimit (byteLimit : ℤ) : Reader ℕ := fun stream =>
  let currentPosition := stream.currentPosition
  let limit :=
    if 0 ≤ byteLimit ∧ byteLimit ≤ intMax - currentPosition then
      currentPosition + byteLimit.toNat
    else intMax
  .returned stream.currentLimit
    { stream with currentLimit := min limit stream.currentLimit }.recomputeBufferLimits

/-- `PopLimit`. -/
def popLimit (limit : ℕ) : Reader Unit := fun stream =>
  .returned () { { stream with currentLimit := limit }.recomputeBufferLimits with
    legitimateMessageEnd := false }

/-- `Next` never offers an empty block, so `NextNonEmpty` calls it once. -/
def refresh (stream : CodedInputStream) : Bool × CodedInputStream :=
  if 0 < stream.afterLimit.length ∨ 0 < stream.overflowBytes ∨
      stream.totalBytesRead = stream.currentLimit then (false, stream)
  else
    match stream.input.next with
    | (some block, input) =>
        if stream.totalBytesRead ≤ intMax - block.length then
          (true, { stream with
            input := input
            buffer := block
            totalBytesRead := stream.totalBytesRead + block.length }.recomputeBufferLimits)
        else
          let overflowBytes := stream.totalBytesRead - (intMax - block.length)
          (true, { stream with
            input := input
            buffer := block.take (block.length - overflowBytes)
            overflowBytes := overflowBytes
            totalBytesRead := intMax }.recomputeBufferLimits)
    | (none, input) => (false, { stream with input := input, buffer := [] })

/-- The constructor, which refreshes at once. -/
def construct (input : ArrayInputStream) : CodedInputStream :=
  refresh
    { input := input
      buffer := []
      afterLimit := []
      totalBytesRead := 0
      overflowBytes := 0
      lastTag := 0
      legitimateMessageEnd := false
      currentLimit := intMax
      totalBytesLimit := kDefaultTotalBytesLimit
      recursionDepth := 0
      recursionLimit := defaultRecursionLimit } |>.2

/-- The destructor: none if a check of `BackUp` fails. -/
def backUpInputToCurrentPosition (stream : CodedInputStream) : Option CodedInputStream :=
  let backupBytes := stream.bufferSize + stream.afterLimit.length + stream.overflowBytes
  if 0 < backupBytes then
    (stream.input.backUp backupBytes).map fun input =>
      { stream with
        input := input
        totalBytesRead := stream.totalBytesRead - (stream.bufferSize + stream.afterLimit.length)
        buffer := []
        afterLimit := []
        overflowBytes := 0 }
  else some stream

/-- What a refresh leaves to be returned by `input_`. -/
theorem refresh_decreases {stream next : CodedInputStream}
    (refreshed : stream.refresh = (true, next)) :
    next.input.data.length - next.input.position <
      stream.input.data.length - stream.input.position := by
  simp only [refresh, ArrayInputStream.next] at refreshed
  split at refreshed
  · simp at refreshed
  · by_cases inside : stream.input.position < stream.input.data.length
    · have positive := stream.input.blockSize_pos (List.ne_nil_of_length_pos (by omega))
      simp only [inside, if_true] at refreshed
      split at refreshed
      all_goals
        simp only [Prod.mk.injEq, true_and] at refreshed
        subst refreshed
        simp only [recomputeBufferLimits]
        split
        all_goals
          simp only
          omega
    · simp [inside] at refreshed

/-- `Skip`. -/
def skip (count : ℤ) : Reader Unit := fun stream =>
  if count < 0 then .failed stream
  else if count ≤ stream.bufferSize then .returned () (stream.advance count.toNat)
  else if 0 < stream.afterLimit.length then .failed (stream.advance stream.bufferSize)
  else
    let count := count.toNat - stream.bufferSize
    let closestLimit := min stream.currentLimit stream.totalBytesLimit
    let bytesUntilLimit := closestLimit - stream.totalBytesRead
    if bytesUntilLimit < count then
      if 0 < bytesUntilLimit then
        .failed { stream with
          buffer := []
          totalBytesRead := closestLimit
          input := (stream.input.skip bytesUntilLimit).2 }
      else .failed { stream with buffer := [] }
    else
      let (skipped, input) := stream.input.skip count
      let stream := { stream with
        buffer := []
        totalBytesRead := stream.totalBytesRead + count
        input := input }
      if skipped then .returned () stream else .failed stream

/-- The loop of `ReadRaw` and of `ReadStringFallback`. -/
def readRaw (size : ℕ) (stream : CodedInputStream) : Outcome (List UInt8) :=
  if stream.bufferSize < size then
    match _refreshed : (stream.advance stream.bufferSize).refresh with
    | (true, next) =>
        match next.readRaw (size - stream.bufferSize) with
        | .returned bytes last => .returned (stream.buffer ++ bytes) last
        | .failed last => .failed last
        | .undefined => .undefined
    | (false, next) => .failed next
  else .returned (stream.buffer.take size) (stream.advance size)
termination_by stream.input.data.length - stream.input.position
decreasing_by
  have decreases := refresh_decreases _refreshed
  exact decreases

/-- `InternalReadStringInline`. -/
def readString (size : ℤ) : Reader (List UInt8) := fun stream =>
  if size < 0 then .failed stream
  else if size ≤ stream.bufferSize then
    .returned (stream.buffer.take size.toNat) (stream.advance size.toNat)
  else stream.readRaw size.toNat

/-- The bytes of a fixed-size number, from the buffer if they are all there. -/
def readFixed (size : ℕ) : Reader (List UInt8) := fun stream =>
  if size ≤ stream.bufferSize then .returned (stream.buffer.take size) (stream.advance size)
  else stream.readRaw size

/-- Bytes in the order of a little-endian machine. -/
def readLittleEndian32 : Reader UInt32 := do
  let bytes ← readFixed 4
  pure (UInt32.ofNat (Pointer.decode bytes))

/-- `ReadLittleEndian64`. -/
def readLittleEndian64 : Reader UInt64 := do
  let bytes ← readFixed 8
  pure (UInt64.ofNat (Pointer.decode bytes))

/-! ### Varints -/

/-- What reading from an array without bounds checks comes to. -/
inductive FromArray (α : Type) where
  | done (value : α) (ptr : List UInt8)
  /-- `NULL`. -/
  | corrupt
  /-- The read would pass the end of the array. -/
  | overrun

namespace FromArray

/-- `b = *(ptr++)`. -/
def next {α : Type} (ptr : List UInt8) (use : UInt32 → List UInt8 → FromArray α) : FromArray α :=
  match ptr with
  | [] => .overrun
  | byte :: ptr => use byte.toUInt32 ptr

end FromArray

/-- The loop that discards the high-order bits. -/
def discardVarint32 (result : UInt32) : ℕ → List UInt8 → FromArray UInt32
  | 0, _ => .corrupt
  | count + 1, ptr => .next ptr fun b ptr =>
      if b &&& 0x80 = 0 then .done result ptr else discardVarint32 result count ptr

/-- `ReadVarint32FromArray`: the first five bytes are written out. -/
def readVarint32FromArray (buffer : List UInt8) : FromArray UInt32 :=
  .next buffer fun b ptr =>
  let result := b &&& 0x7F
  if b &&& 0x80 = 0 then .done result ptr else .next ptr fun b ptr =>
  let result := result ||| (b &&& 0x7F) <<< 7
  if b &&& 0x80 = 0 then .done result ptr else .next ptr fun b ptr =>
  let result := result ||| (b &&& 0x7F) <<< 14
  if b &&& 0x80 = 0 then .done result ptr else .next ptr fun b ptr =>
  let result := result ||| (b &&& 0x7F) <<< 21
  if b &&& 0x80 = 0 then .done result ptr else .next ptr fun b ptr =>
  let result := result ||| b <<< 28
  if b &&& 0x80 = 0 then .done result ptr
  else discardVarint32 result (kMaxVarintBytes - kMaxVarint32Bytes) ptr

/-- The parts of a 64-bit varint put together. -/
def joinParts (part0 part1 part2 : UInt32) : UInt64 :=
  part0.toUInt64 ||| part1.toUInt64 <<< 28 ||| part2.toUInt64 <<< 56

/-- The fast path of `ReadVarint64Fallback`. -/
def readVarint64FromArray (buffer : List UInt8) : FromArray UInt64 :=
  .next buffer fun b ptr =>
  let part0 := b &&& 0x7F
  if b &&& 0x80 = 0 then .done (joinParts part0 0 0) ptr else .next ptr fun b ptr =>
  let part0 := part0 ||| (b &&& 0x7F) <<< 7
  if b &&& 0x80 = 0 then .done (joinParts part0 0 0) ptr else .next ptr fun b ptr =>
  let part0 := part0 ||| (b &&& 0x7F) <<< 14
  if b &&& 0x80 = 0 then .done (joinParts part0 0 0) ptr else .next ptr fun b ptr =>
  let part0 := part0 ||| (b &&& 0x7F) <<< 21
  if b &&& 0x80 = 0 then .done (joinParts part0 0 0) ptr else .next ptr fun b ptr =>
  let part1 := b &&& 0x7F
  if b &&& 0x80 = 0 then .done (joinParts part0 part1 0) ptr else .next ptr fun b ptr =>
  let part1 := part1 ||| (b &&& 0x7F) <<< 7
  if b &&& 0x80 = 0 then .done (joinParts part0 part1 0) ptr else .next ptr fun b ptr =>
  let part1 := part1 ||| (b &&& 0x7F) <<< 14
  if b &&& 0x80 = 0 then .done (joinParts part0 part1 0) ptr else .next ptr fun b ptr =>
  let part1 := part1 ||| (b &&& 0x7F) <<< 21
  if b &&& 0x80 = 0 then .done (joinParts part0 part1 0) ptr else .next ptr fun b ptr =>
  let part2 := b &&& 0x7F
  if b &&& 0x80 = 0 then .done (joinParts part0 part1 part2) ptr else .next ptr fun b ptr =>
  let part2 := part2 ||| (b &&& 0x7F) <<< 7
  if b &&& 0x80 = 0 then .done (joinParts part0 part1 part2) ptr else .corrupt

/-- Whether a varint can be read without bounds checks. -/
def varintInBuffer (stream : CodedInputStream) : Bool :=
  kMaxVarintBytes ≤ stream.bufferSize ||
    match stream.buffer.getLast? with
    | some last => last &&& 0x80 = 0
    | none => false

/-- `while (buffer_ == buffer_end_) { if (!Refresh()) return false; }`. -/
def fillBuffer (stream : CodedInputStream) : Bool × CodedInputStream :=
  if stream.buffer = [] then
    match _refreshed : stream.refresh with
    | (true, next) => next.fillBuffer
    | (false, next) => (false, next)
  else (true, stream)
termination_by stream.input.data.length - stream.input.position
decreasing_by exact refresh_decreases _refreshed

/-- `left` more bytes may be read. -/
def readVarint64SlowLoop (result : UInt64) : ℕ → Reader UInt64
  | 0 => fail
  | left + 1 => fun stream =>
      match stream.fillBuffer with
      | (false, next) => .failed next
      | (true, next) =>
          let count := kMaxVarintBytes - (left + 1)
          let b := (next.buffer.headD 0).toUInt32
          let result := result ||| (b &&& 0x7F).toUInt64 <<< UInt64.ofNat (7 * count)
          let next := next.advance 1
          if b &&& 0x80 = 0 then .returned result next
          else readVarint64SlowLoop result left next

/-- `ReadVarint64Slow`. -/
def readVarint64Slow : Reader UInt64 := readVarint64SlowLoop 0 kMaxVarintBytes

/-- `ReadVarint64Fallback`. -/
def readVarint64Fallback : Reader UInt64 := fun stream =>
  if stream.varintInBuffer then
    match readVarint64FromArray stream.buffer with
    | .done value ptr => .returned value { stream with buffer := ptr }
    | .corrupt => .failed stream
    | .overrun => .undefined
  else readVarint64Slow stream

/-- `ReadVarint64`. -/
def readVarint64 : Reader UInt64 := fun stream =>
  match stream.buffer with
  | byte :: _ =>
      if byte < 0x80 then .returned byte.toUInt64 (stream.advance 1)
      else readVarint64Fallback stream
  | [] => readVarint64Fallback stream

/-- `ReadVarint32Slow`. -/
def readVarint32Slow : Reader UInt32 := do
  let result ← readVarint64Fallback
  pure result.toUInt32

/-- `ReadVarint32Fallback`. -/
def readVarint32Fallback : Reader UInt32 := fun stream =>
  if stream.varintInBuffer then
    match readVarint32FromArray stream.buffer with
    | .done value ptr => .returned value { stream with buffer := ptr }
    | .corrupt => .failed stream
    | .overrun => .undefined
  else readVarint32Slow stream

/-- `ReadVarint32`. -/
def readVarint32 : Reader UInt32 := fun stream =>
  match stream.buffer with
  | byte :: _ =>
      if byte < 0x80 then .returned byte.toUInt32 (stream.advance 1)
      else readVarint32Fallback stream
  | [] => readVarint32Fallback stream

/-! ### Tags -/

/-- The part of `ReadTagSlow` after the buffer has been refreshed. -/
def readTagVarint : Reader UInt32 := fun stream =>
  match readVarint64 stream with
  | .returned result next => .returned result.toUInt32 next
  | .failed next => .returned 0 next
  | .undefined => .undefined

/-- `ReadTagSlow`. -/
def readTagSlow : Reader UInt32 := fun stream =>
  if stream.buffer = [] then
    match stream.refresh with
    | (true, next) => readTagVarint next
    | (false, next) =>
        let currentPosition := next.totalBytesRead - next.afterLimit.length
        .returned 0 { next with
          legitimateMessageEnd :=
            if next.totalBytesLimit ≤ currentPosition then
              next.currentLimit == next.totalBytesLimit
            else true }
  else readTagVarint stream

/-- `ReadTagFallback`. -/
def readTagFallback : Reader UInt32 := fun stream =>
  if stream.varintInBuffer then
    match readVarint32FromArray stream.buffer with
    | .done tag ptr => .returned tag { stream with buffer := ptr }
    | .corrupt => .returned 0 stream
    | .overrun => .undefined
  else if stream.buffer = [] ∧
      (0 < stream.afterLimit.length ∨ stream.totalBytesRead = stream.currentLimit) ∧
      stream.totalBytesRead - stream.afterLimit.length < stream.totalBytesLimit then
    .returned 0 { stream with legitimateMessageEnd := true }
  else readTagSlow stream

/-- Keeps the tag in `last_tag_`. -/
def setLastTag (tag : UInt32) : Reader UInt32 := fun stream =>
  .returned tag { stream with lastTag := tag }

/-- `ReadTag`. -/
def readTag : Reader UInt32 := fun stream =>
  match stream.buffer with
  | byte :: _ =>
      if byte < 0x80 then setLastTag byte.toUInt32 (stream.advance 1)
      else (readTagFallback >>= setLastTag) stream
  | [] => (readTagFallback >>= setLastTag) stream

/-- The call of `LastTagWas` by a caller that returns false otherwise. -/
def lastTagWas (expected : UInt32) : Reader Unit := fun stream =>
  if stream.lastTag = expected then .returned () stream else .failed stream

/-- `ConsumedEntireMessage`. -/
def consumedEntireMessage : Reader Unit := fun stream =>
  if stream.legitimateMessageEnd then .returned () stream else .failed stream

/-- `ExpectTag`. -/
def expectTag (expected : UInt32) : Reader Bool := fun stream =>
  if expected < (1 : UInt32) <<< 7 then
    match stream.buffer with
    | byte :: _ =>
        if byte.toUInt32 = expected then .returned true (stream.advance 1)
        else .returned false stream
    | [] => .returned false stream
  else if expected < (1 : UInt32) <<< 14 then
    match stream.buffer with
    | byte0 :: byte1 :: _ =>
        if byte0 = (expected ||| 0x80).toUInt8 ∧ byte1 = (expected >>> 7).toUInt8 then
          .returned true (stream.advance 2)
        else .returned false stream
    | _ => .returned false stream
  else .returned false stream

/-- `ExpectAtEnd`. -/
def expectAtEnd : Reader Bool := fun stream =>
  if stream.buffer = [] ∧
      (stream.afterLimit.length ≠ 0 ∨ stream.totalBytesRead = stream.currentLimit) then
    .returned true { stream with lastTag := 0, legitimateMessageEnd := true }
  else .returned false stream

/-- `IncrementRecursionDepth`. -/
def incrementRecursionDepth : Reader Unit := fun stream =>
  let stream := { stream with recursionDepth := stream.recursionDepth + 1 }
  if stream.recursionDepth ≤ stream.recursionLimit then .returned () stream else .failed stream

/-- `DecrementRecursionDepth`. -/
def decrementRecursionDepth : Reader Unit := fun stream =>
  .returned () { stream with recursionDepth := stream.recursionDepth - 1 }

/-- The bytes that are left, which bounds how often a loop over fields can run. -/
def bytesLeft (stream : CodedInputStream) : ℕ :=
  stream.bufferSize + stream.afterLimit.length + stream.input.remaining.length

end CodedInputStream

/-! ## WireFormatLite -/

/-- `WireType`. -/
inductive WireType where
  | varint
  | fixed64
  | lengthDelimited
  | startGroup
  | endGroup
  | fixed32
deriving DecidableEq, Repr

/-- The number of a wire type. -/
def WireType.code : WireType → UInt32
  | .varint => 0
  | .fixed64 => 1
  | .lengthDelimited => 2
  | .startGroup => 3
  | .endGroup => 4
  | .fixed32 => 5

namespace WireFormatLite

open CodedInputStream

/-- `MakeTag`. -/
def makeTag (fieldNumber : UInt32) (type : WireType) : UInt32 := fieldNumber <<< 3 ||| type.code

/-- None for the two values that are no wire type. -/
def getTagWireType (tag : UInt32) : Option WireType :=
  [.varint, .fixed64, .lengthDelimited, .startGroup, .endGroup, .fixed32].find?
    fun type => type.code = tag &&& 7

/-- `GetTagFieldNumber`. -/
def getTagFieldNumber (tag : UInt32) : UInt32 := tag >>> 3

/-- `SkipField` with the function that skips the fields of a group. -/
def skipFieldWith (skipMessage : Reader Unit) (tag : UInt32) : Reader Unit :=
  match getTagWireType tag with
  | some .varint => do
      let _ ← readVarint64
      pure ()
  | some .fixed64 => do
      let _ ← readLittleEndian64
      pure ()
  | some .lengthDelimited => do
      let length ← readVarint32
      skip length.toInt32.toInt
  | some .startGroup => do
      incrementRecursionDepth
      skipMessage
      decrementRecursionDepth
      lastTagWas (makeTag (getTagFieldNumber tag) .endGroup)
  | some .endGroup => fail
  | some .fixed32 => do
      let _ ← readLittleEndian32
      pure ()
  | none => fail

/-- `SkipMessage`, whose loop runs at most `fuel` times. -/
def skipMessageLoop : ℕ → Reader Unit
  | 0 => fun _ => .undefined
  | fuel + 1 => do
      let tag ← readTag
      if tag = 0 then pure ()
      else if getTagWireType tag = some .endGroup then pure ()
      else
        skipFieldWith (skipMessageLoop fuel) tag
        skipMessageLoop fuel

/-- `SkipMessage`. -/
def skipMessage : Reader Unit := fun stream => skipMessageLoop (stream.bytesLeft + 1) stream

/-- `SkipField`. -/
def skipField (tag : UInt32) : Reader Unit := skipFieldWith skipMessage tag

end WireFormatLite

end Gsp.Protobuf
