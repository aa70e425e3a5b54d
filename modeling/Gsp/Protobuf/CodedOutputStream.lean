import Gsp.Protobuf.CodedInputStream

/-!
# Writing to a coded stream

`ArrayOutputStream` and `CodedOutputStream` over it, which keeps the bytes of the
array: `buffer_` points to where the unwritten part of the last block starts. A
size that is an `int` is a natural number.

A call that runs into a failing check has no result.
-/

namespace Gsp.Protobuf

/-! ## ArrayOutputStream -/

/-- `ArrayOutputStream`: an array that is handed out in blocks. -/
structure ArrayOutputStream where
  size : ℕ
  blockSize : ℕ
  position : ℕ
  lastReturnedSize : ℕ
  blockSize_pos : 0 < size → 0 < blockSize

namespace ArrayOutputStream

theorem pos_of_default {size : ℕ} {blockSize : ℤ} (positive : 0 < size) :
    0 < if 0 < blockSize then blockSize.toNat else size := by
  split
  · omega
  · exact positive

/-- The constructor. -/
def construct (size : ℕ) (blockSize : ℤ) : ArrayOutputStream where
  size := size
  blockSize := if 0 < blockSize then blockSize.toNat else size
  position := 0
  lastReturnedSize := 0
  blockSize_pos := pos_of_default

/-- The size of the next block. -/
def next (stream : ArrayOutputStream) : Option ℕ × ArrayOutputStream :=
  if stream.position < stream.size then
    let size := min stream.blockSize (stream.size - stream.position)
    (some size, { stream with lastReturnedSize := size, position := stream.position + size })
  else (none, { stream with lastReturnedSize := 0 })

end ArrayOutputStream

/-! ## CodedOutputStream -/

/-- `CodedOutputStream`, with the array it writes to. -/
structure CodedOutputStream where
  output : ArrayOutputStream
  /-- The bytes of the array. -/
  data : List UInt8
  bufferSize : ℕ
  totalBytes : ℕ
  hadError : Bool

/-- Code that writes; none if a check fails. -/
def Writer : Type := CodedOutputStream → Option CodedOutputStream

/-- First the one, then the other. -/
def Writer.andThen (first second : Writer) : Writer := fun stream => (first stream).bind second

/-- Writes nothing. -/
def Writer.skip : Writer := some

namespace CodedOutputStream

/-- `kMaxVarintBytes`. -/
def kMaxVarintBytes : ℕ := 10

/-- `kMaxVarint32Bytes`. -/
def kMaxVarint32Bytes : ℕ := 5

/-- Where `buffer_` points to. -/
def cursor (stream : CodedOutputStream) : ℕ := stream.output.position - stream.bufferSize

/-- `Refresh`. -/
def refresh (stream : CodedOutputStream) : Bool × CodedOutputStream :=
  match stream.output.next with
  | (some size, output) =>
      (true, { stream with
        output := output, bufferSize := size, totalBytes := stream.totalBytes + size })
  | (none, output) => (false, { stream with output := output, bufferSize := 0, hadError := true })

/-- The constructor, which refreshes at once and ignores an error. -/
def construct (data : List UInt8) (blockSize : ℤ) : CodedOutputStream :=
  let refreshed := refresh
    { output := .construct data.length blockSize
      data := data
      bufferSize := 0
      totalBytes := 0
      hadError := false } |>.2
  { refreshed with hadError := false }

/-- `ByteCount`. -/
def byteCount (stream : CodedOutputStream) : ℕ := stream.totalBytes - stream.bufferSize

/-- `memcpy` to `buffer_`, and `Advance`. -/
def put (stream : CodedOutputStream) (bytes : List UInt8) : CodedOutputStream :=
  { stream with
    data := stream.data.take stream.cursor ++ bytes ++
      stream.data.drop (stream.cursor + bytes.length)
    bufferSize := stream.bufferSize - bytes.length }

/-- What a refresh leaves of the array. -/
theorem refresh_decreases {stream next : CodedOutputStream}
    (refreshed : stream.refresh = (true, next)) :
    next.output.size - next.output.position < stream.output.size - stream.output.position := by
  simp only [refresh, ArrayOutputStream.next] at refreshed
  by_cases inside : stream.output.position < stream.output.size
  · have positive := stream.output.blockSize_pos (by omega)
    simp only [if_pos inside, Prod.mk.injEq, true_and] at refreshed
    subst refreshed
    dsimp only
    omega
  · simp [if_neg inside] at refreshed

/-- `WriteRaw`. -/
def writeRaw (bytes : List UInt8) (stream : CodedOutputStream) : CodedOutputStream :=
  if stream.bufferSize < bytes.length then
    match _refreshed : (stream.put (bytes.take stream.bufferSize)).refresh with
    | (true, next) => writeRaw (bytes.drop stream.bufferSize) next
    | (false, next) => next
  else stream.put bytes
termination_by stream.output.size - stream.output.position
decreasing_by
  have decreases := refresh_decreases _refreshed
  exact decreases

/-- `WriteString` and the other writes of bytes. -/
def writeBytes (bytes : List UInt8) : Writer := fun stream => some (stream.writeRaw bytes)

/-! ### Numbers -/

/-- `WriteLittleEndian32`. -/
def writeLittleEndian32 (value : UInt32) : Writer := fun stream =>
  let bytes := Pointer.encode 4 value.toNat
  if bytes.length ≤ stream.bufferSize then some (stream.put bytes)
  else some (stream.writeRaw bytes)

/-- `WriteVarint32FallbackToArray`: the five bytes written out. -/
def writeVarint32FallbackToArray (value : UInt32) : List UInt8 :=
  let target0 := (value ||| 0x80).toUInt8
  if (1 : UInt32) <<< 7 ≤ value then
    let target1 := (value >>> 7 ||| 0x80).toUInt8
    if (1 : UInt32) <<< 14 ≤ value then
      let target2 := (value >>> 14 ||| 0x80).toUInt8
      if (1 : UInt32) <<< 21 ≤ value then
        let target3 := (value >>> 21 ||| 0x80).toUInt8
        if (1 : UInt32) <<< 28 ≤ value then
          [target0, target1, target2, target3, (value >>> 28).toUInt8]
        else [target0, target1, target2, target3 &&& 0x7F]
      else [target0, target1, target2 &&& 0x7F]
    else [target0, target1 &&& 0x7F]
  else [target0 &&& 0x7F]

/-- The loops that compose the bytes of a varint, for 32 and for 64 bits. -/
def composeVarint (value : UInt64) : List UInt8 :=
  if 0x7F < value then (value.toUInt8 &&& 0x7F ||| 0x80) :: composeVarint (value >>> 7)
  else [value.toUInt8 &&& 0x7F]
termination_by value.toNat
decreasing_by
  rename_i large
  have positive : 0x7F < value.toNat := UInt64.lt_iff_toNat_lt.mp large
  have shifted : (value >>> 7).toNat = value.toNat / 128 := by
    rw [UInt64.toNat_shiftRight]
    exact Nat.shiftRight_eq_div_pow _ _
  omega

/-- `WriteVarint32`. -/
def writeVarint32 (value : UInt32) : Writer := fun stream =>
  if kMaxVarint32Bytes ≤ stream.bufferSize then
    some (stream.put (writeVarint32FallbackToArray value))
  else some (stream.writeRaw (composeVarint value.toUInt64))

/-- How many bytes the three parts of a 64-bit number take. -/
def varintPartsSize (part0 part1 part2 : UInt32) : ℕ :=
  if part2 = 0 then
    if part1 = 0 then
      if part0 < (1 : UInt32) <<< 14 then
        if part0 < (1 : UInt32) <<< 7 then 1 else 2
      else
        if part0 < (1 : UInt32) <<< 21 then 3 else 4
    else
      if part1 < (1 : UInt32) <<< 14 then
        if part1 < (1 : UInt32) <<< 7 then 5 else 6
      else
        if part1 < (1 : UInt32) <<< 21 then 7 else 8
  else
    if part2 < (1 : UInt32) <<< 7 then 9 else 10

/-- `WriteVarint64ToArrayInline`: the labels fall through down to `size1`. -/
def writeVarint64ToArray (value : UInt64) : List UInt8 :=
  let part0 := value.toUInt32
  let part1 := (value >>> 28).toUInt32
  let part2 := (value >>> 56).toUInt32
  let size := varintPartsSize part0 part1 part2
  let target :=
    [(part0 ||| 0x80).toUInt8, (part0 >>> 7 ||| 0x80).toUInt8, (part0 >>> 14 ||| 0x80).toUInt8,
      (part0 >>> 21 ||| 0x80).toUInt8, (part1 ||| 0x80).toUInt8, (part1 >>> 7 ||| 0x80).toUInt8,
      (part1 >>> 14 ||| 0x80).toUInt8, (part1 >>> 21 ||| 0x80).toUInt8, (part2 ||| 0x80).toUInt8,
      (part2 >>> 7 ||| 0x80).toUInt8]
  (target.take size).modify (size - 1) (· &&& 0x7F)

/-- `WriteVarint64`. -/
def writeVarint64 (value : UInt64) : Writer := fun stream =>
  if kMaxVarintBytes ≤ stream.bufferSize then some (stream.put (writeVarint64ToArray value))
  else some (stream.writeRaw (composeVarint value))

/-- `WriteVarint32SignExtended`. -/
def writeVarint32SignExtended (value : Int32) : Writer :=
  if value < 0 then writeVarint64 value.toInt64.toUInt64 else writeVarint32 value.toUInt32

/-! ### Sizes -/

/-- `VarintSize32Fallback`. -/
def varintSize32Fallback (value : UInt32) : ℕ :=
  if value < (1 : UInt32) <<< 7 then 1
  else if value < (1 : UInt32) <<< 14 then 2
  else if value < (1 : UInt32) <<< 21 then 3
  else if value < (1 : UInt32) <<< 28 then 4
  else 5

/-- `VarintSize32`. -/
def varintSize32 (value : UInt32) : ℕ :=
  if value < (1 : UInt32) <<< 7 then 1 else varintSize32Fallback value

/-- `VarintSize32SignExtended`. -/
def varintSize32SignExtended (value : Int32) : ℕ :=
  if value < 0 then 10 else varintSize32 value.toUInt32

end CodedOutputStream

/-! ## WireFormatLite -/

namespace WireFormatLite

open CodedOutputStream

/-- `INT_MAX` as the check of `WriteString` names it. -/
def kint32max : ℕ := 2 ^ 31 - 1

/-- `WriteTag`. -/
def writeTag (fieldNumber : UInt32) (type : WireType) : Writer :=
  writeVarint32 (makeTag fieldNumber type)

/-- `WriteInt32`. -/
def writeInt32 (fieldNumber : UInt32) (value : Int32) : Writer :=
  (writeTag fieldNumber .varint).andThen (writeVarint32SignExtended value)

/-- A float by its bits. -/
def writeFloat (fieldNumber : UInt32) (value : UInt32) : Writer :=
  (writeTag fieldNumber .fixed32).andThen (writeLittleEndian32 value)

/-- `WriteString`. -/
def writeString (fieldNumber : UInt32) (value : List UInt8) : Writer :=
  (writeTag fieldNumber .lengthDelimited).andThen
    (if value.length ≤ kint32max then
      (writeVarint32 (UInt32.ofNat value.length)).andThen (writeBytes value)
    else fun _ => none)

/-- `WriteMessage` for a value with its cached size and its `SerializeWithCachedSizes`. -/
def writeMessage (fieldNumber : UInt32) (cachedSize : ℕ) (serialize : Writer) : Writer :=
  (writeTag fieldNumber .lengthDelimited).andThen
    ((writeVarint32 (UInt32.ofNat cachedSize)).andThen serialize)

/-- `Int32Size`. -/
def int32Size (value : Int32) : ℕ := varintSize32SignExtended value

/-- A length and what it announces. -/
def lengthDelimitedSize (length : ℕ) : ℕ := length + varintSize32 (UInt32.ofNat length)

/-- `StringSize`. -/
def stringSize (value : List UInt8) : ℕ := lengthDelimitedSize value.length

end WireFormatLite

end Gsp.Protobuf
