import Gsp.CircularBuffer.Basic

/-!
# The calls on a circular buffer

The functions of `CircularBuffer` as data, for code that calls them one at a time.
-/

namespace Gsp

/-- A call. -/
inductive BufferCall where
  | getFreeSpaceSize
  | getBuffer
  | getContiguiousBytes
  | getBufferStart
  | commit (len : ℕ)
  | remove (len : ℕ)
  | bufferReset
deriving DecidableEq

/-- What a call returns. -/
def BufferCall.Result : BufferCall → Type
  | .getFreeSpaceSize | .getBuffer | .getContiguiousBytes => ℕ
  | .getBufferStart => Option ℕ
  | .commit _ | .remove _ | .bufferReset => Unit

/-- What a call returns and leaves behind. -/
def CircularBuffer.onCall (buffer : CircularBuffer) :
    (call : BufferCall) → call.Result × CircularBuffer
  | .getFreeSpaceSize => buffer.getFreeSpaceSize
  | .getBuffer => (buffer.getBuffer, buffer)
  | .getContiguiousBytes => (buffer.getContiguiousBytes, buffer)
  | .getBufferStart => (buffer.getBufferStart, buffer)
  | .commit len => ((), buffer.commit len)
  | .remove len => ((), buffer.remove len)
  | .bufferReset => ((), buffer.bufferReset)

end Gsp
