import Gsp.Lib.Region
import Gsp.Lib.Word

/-!
# The circular buffer

`CircularBuffer` of `CircularBuffer.h` and `CircularBuffer.cpp`, which are the
same files in the server and in the dummy client. Pointers are offsets from
`mBuffer`; the only pointer that may be null is the one to region B. The block
allocated by `new char[mCapacity]` is a function from offsets to bytes with
arbitrary initial contents.

`size_t` differences of pointers are taken modulo `2 ^ 64`. The subtractions in
`remove` are guarded by the comparison just before them and the additions stay
below the capacity, so these are on plain naturals.
-/

namespace Gsp

/-- The buffer, with the block it owns. -/
structure CircularBuffer where
  /-- The block `mBuffer` points to. -/
  mBuffer : ℕ → UInt8
  mBufferEnd : ℕ
  mARegionPointer : ℕ
  mARegionSize : ℕ
  mBRegionPointer : Option ℕ
  mBRegionSize : ℕ
  mCapacity : ℕ

namespace CircularBuffer

/-- The constructor, on a raw block. -/
def construct (raw : ℕ → UInt8) (capacity : ℕ) : CircularBuffer where
  mBuffer := raw
  mBufferEnd := capacity
  mARegionPointer := 0
  mARegionSize := 0
  mBRegionPointer := none
  mBRegionSize := 0
  mCapacity := capacity

/-- `BufferReset`. -/
def bufferReset (buffer : CircularBuffer) : CircularBuffer where
  mBuffer := Region.fill buffer.mBuffer 0 buffer.mCapacity
  mBufferEnd := buffer.mCapacity
  mARegionPointer := 0
  mARegionSize := 0
  mBRegionPointer := none
  mBRegionSize := 0
  mCapacity := buffer.mCapacity

/-- `AllocateB`. -/
def allocateB (buffer : CircularBuffer) : CircularBuffer :=
  { buffer with mBRegionPointer := some 0 }

/-- `GetAFreeSpace`. -/
def getAFreeSpace (buffer : CircularBuffer) : ℕ :=
  Word.sub64 (Word.sub64 buffer.mBufferEnd buffer.mARegionPointer) buffer.mARegionSize

/-- `GetSpaceBeforeA`. -/
def getSpaceBeforeA (buffer : CircularBuffer) : ℕ :=
  buffer.mARegionPointer

/-- `GetBFreeSpace`. -/
def getBFreeSpace (buffer : CircularBuffer) : ℕ :=
  match buffer.mBRegionPointer with
  | none => 0
  | some pointer =>
      Word.sub64 (Word.sub64 buffer.mARegionPointer pointer) buffer.mBRegionSize

/-- The free space at the write position; switches to region B when there is
more room before region A than behind it. -/
def getFreeSpaceSize (buffer : CircularBuffer) : ℕ × CircularBuffer :=
  if buffer.mBRegionPointer.isSome then
    (buffer.getBFreeSpace, buffer)
  else if buffer.getAFreeSpace < buffer.getSpaceBeforeA then
    (buffer.allocateB.getBFreeSpace, buffer.allocateB)
  else
    (buffer.getAFreeSpace, buffer)

/-- `GetStoredSize`. -/
def getStoredSize (buffer : CircularBuffer) : ℕ :=
  buffer.mARegionSize + buffer.mBRegionSize

/-- `GetContiguiousBytes`: how much can be read in one piece. -/
def getContiguiousBytes (buffer : CircularBuffer) : ℕ :=
  if 0 < buffer.mARegionSize then buffer.mARegionSize else buffer.mBRegionSize

/-- The write position. -/
def getBuffer (buffer : CircularBuffer) : ℕ :=
  match buffer.mBRegionPointer with
  | none => buffer.mARegionPointer + buffer.mARegionSize
  | some pointer => pointer + buffer.mBRegionSize

/-- `Commit`: bytes at the write position count as stored. -/
def commit (buffer : CircularBuffer) (len : ℕ) : CircularBuffer :=
  if buffer.mBRegionPointer.isSome then
    { buffer with mBRegionSize := buffer.mBRegionSize + len }
  else
    { buffer with mARegionSize := buffer.mARegionSize + len }

/-- The read position; null when nothing is stored. -/
def getBufferStart (buffer : CircularBuffer) : Option ℕ :=
  if 0 < buffer.mARegionSize then some buffer.mARegionPointer else buffer.mBRegionPointer

/-- The first `if` of `Remove`: what region A can give up. -/
def removeFromA (buffer : CircularBuffer) (cnt : ℕ) : ℕ × CircularBuffer :=
  if 0 < buffer.mARegionSize then
    let aRemove := if buffer.mARegionSize < cnt then buffer.mARegionSize else cnt
    (cnt - aRemove,
      { buffer with
        mARegionSize := buffer.mARegionSize - aRemove
        mARegionPointer := buffer.mARegionPointer + aRemove })
  else (cnt, buffer)

/-- The second `if` of `Remove`: the rest comes out of region B. -/
def removeFromB (buffer : CircularBuffer) (cnt : ℕ) : CircularBuffer :=
  if 0 < cnt ∧ 0 < buffer.mBRegionSize then
    let bRemove := if buffer.mBRegionSize < cnt then buffer.mBRegionSize else cnt
    { buffer with
      mBRegionSize := buffer.mBRegionSize - bRemove
      mBRegionPointer := buffer.mBRegionPointer.map (· + bRemove) }
  else buffer

/-- The third `if` of `Remove`: an empty region A is replaced by region B. -/
def switchToA (buffer : CircularBuffer) : CircularBuffer :=
  if buffer.mARegionSize = 0 then
    if 0 < buffer.mBRegionSize then
      { buffer with
        mBuffer :=
          match buffer.mBRegionPointer with
          | none => buffer.mBuffer
          | some pointer =>
              if pointer ≠ 0 then
                Region.move buffer.mBuffer 0 pointer buffer.mBRegionSize
              else buffer.mBuffer
        mARegionPointer := 0
        mARegionSize := buffer.mBRegionSize
        mBRegionPointer := none
        mBRegionSize := 0 }
    else
      { buffer with
        mBRegionPointer := none
        mBRegionSize := 0
        mARegionPointer := 0
        mARegionSize := 0 }
  else buffer

/-- `Remove`: the oldest bytes go. -/
def remove (buffer : CircularBuffer) (len : ℕ) : CircularBuffer :=
  let (cnt, taken) := buffer.removeFromA len
  (taken.removeFromB cnt).switchToA

/-- `memcpy` of `bytes` to the write position, or what the network driver
stores in a window handed to it at that position. -/
def store (buffer : CircularBuffer) (bytes : List UInt8) : CircularBuffer :=
  { buffer with mBuffer := Region.write buffer.mBuffer buffer.getBuffer bytes }

/-- The bytes a reader sees: `getContiguiousBytes` bytes at `getBufferStart`. -/
def peek (buffer : CircularBuffer) : List UInt8 :=
  match buffer.getBufferStart with
  | none => []
  | some start => Region.read buffer.mBuffer start buffer.getContiguiousBytes

end CircularBuffer

end Gsp
