import Gsp.Protobuf.Varint
import Gsp.Protobuf.WireFormat

/-!
# Blocks and limits

A coherent stream shows the bytes of its array from the current position to the
current limit, however they are spread over blocks. Each call of the stream does
to these bytes what the parser of the wire format does, and reads nothing else.

The array is shorter than the limit on the total number of bytes.
-/

namespace Gsp.Protobuf.CodedInputStream

variable {stream next : CodedInputStream}

/-- The bytes that may still be read. -/
def visible (stream : CodedInputStream) : List UInt8 :=
  (stream.input.data.drop stream.currentPosition).take
    (stream.currentLimit - stream.currentPosition)

/-- The block that has been returned last is held, apart from what has been read of it. -/
structure Held (stream : CodedInputStream) : Prop where
  overflow_eq : stream.overflowBytes = 0
  read_eq : stream.totalBytesRead = stream.input.position
  read_le : stream.input.position ≤ stream.input.data.length
  short : stream.input.data.length < stream.totalBytesLimit
  limit_le : stream.totalBytesLimit ≤ intMax
  held_le : stream.bufferSize + stream.afterLimit.length ≤ stream.totalBytesRead
  held_eq : stream.buffer ++ stream.afterLimit =
    (stream.input.data.drop stream.currentPosition).take
      (stream.totalBytesRead - stream.currentPosition)
  position_le : stream.currentPosition ≤ stream.currentLimit
  returned_le : stream.bufferSize + stream.afterLimit.length = 0 ∨
    stream.bufferSize + stream.afterLimit.length ≤ stream.input.lastReturnedSize

/-- The buffer ends at the limit. -/
structure Coherent (stream : CodedInputStream) : Prop extends stream.Held where
  afterLimit_eq : stream.afterLimit.length = stream.totalBytesRead - stream.currentLimit

/-- The destructor can give back what has not been read. -/
def Releasable (stream : CodedInputStream) : Prop :=
  stream.overflowBytes = 0 ∧
    (stream.bufferSize + stream.afterLimit.length = 0 ∨
      stream.bufferSize + stream.afterLimit.length ≤ stream.input.lastReturnedSize)

theorem Releasable.backUp (releasable : stream.Releasable) :
    stream.backUpInputToCurrentPosition.isSome := by
  rcases releasable with ⟨overflow_eq, returned⟩
  simp only [backUpInputToCurrentPosition, ArrayInputStream.backUp, overflow_eq, Nat.add_zero]
  split
  · rw [if_pos (by omega)]
    rfl
  · rfl

/-- The same array with the same limits. -/
structure Alike (stream next : CodedInputStream) : Prop where
  data_eq : next.input.data = stream.input.data
  currentLimit_eq : next.currentLimit = stream.currentLimit
  totalBytesLimit_eq : next.totalBytesLimit = stream.totalBytesLimit
  recursionDepth_eq : next.recursionDepth = stream.recursionDepth
  recursionLimit_eq : next.recursionLimit = stream.recursionLimit
  legitimate_eq : next.legitimateMessageEnd = stream.legitimateMessageEnd

theorem Alike.refl (stream : CodedInputStream) : Alike stream stream :=
  ⟨rfl, rfl, rfl, rfl, rfl, rfl⟩

theorem Alike.trans {last : CodedInputStream} (first : Alike stream next)
    (second : Alike next last) : Alike stream last where
  data_eq := second.data_eq.trans first.data_eq
  currentLimit_eq := second.currentLimit_eq.trans first.currentLimit_eq
  totalBytesLimit_eq := second.totalBytesLimit_eq.trans first.totalBytesLimit_eq
  recursionDepth_eq := second.recursionDepth_eq.trans first.recursionDepth_eq
  recursionLimit_eq := second.recursionLimit_eq.trans first.recursionLimit_eq
  legitimate_eq := second.legitimate_eq.trans first.legitimate_eq

/-- The stream has been read up to where `rest` is left. -/
structure Moved (stream next : CodedInputStream) (rest : List UInt8) : Prop
    extends Alike stream next where
  coherent : next.Coherent
  visible_eq : next.visible = rest
  suffix : rest <:+ stream.visible

theorem Moved.refl (coherent : stream.Coherent) : Moved stream stream stream.visible :=
  ⟨.refl stream, coherent, rfl, List.suffix_refl _⟩

theorem Moved.trans {last : CodedInputStream} {middle rest : List UInt8}
    (first : Moved stream next middle) (second : Moved next last rest) :
    Moved stream last rest where
  toAlike := first.toAlike.trans second.toAlike
  coherent := second.coherent
  visible_eq := second.visible_eq
  suffix := (first.visible_eq ▸ second.suffix).trans first.suffix

/-! ## What is visible -/

namespace Held

theorem releasable (held : stream.Held) : stream.Releasable :=
  ⟨held.overflow_eq, held.returned_le⟩

theorem position_add (held : stream.Held) :
    stream.currentPosition + (stream.bufferSize + stream.afterLimit.length) =
      stream.totalBytesRead := by
  have held_le := held.held_le
  rw [currentPosition]
  omega

/-- The buffer may end anywhere in what is held. -/
theorem resplit (held : stream.Held) {buffer afterLimit : List UInt8}
    (same : buffer ++ afterLimit = stream.buffer ++ stream.afterLimit) :
    { stream with buffer := buffer, afterLimit := afterLimit }.Held ∧
      { stream with buffer := buffer, afterLimit := afterLimit }.currentPosition =
        stream.currentPosition := by
  have length_eq : buffer.length + afterLimit.length =
      stream.bufferSize + stream.afterLimit.length := by
    have lengths := congrArg List.length same
    rwa [List.length_append, List.length_append] at lengths
  have position_eq : { stream with buffer := buffer, afterLimit := afterLimit }.currentPosition =
      stream.currentPosition := by
    simp only [currentPosition, bufferSize, length_eq]
  refine ⟨⟨held.overflow_eq, held.read_eq, held.read_le, held.short, held.limit_le, ?_, ?_, ?_, ?_⟩,
    position_eq⟩
  · simpa only [bufferSize, length_eq] using held.held_le
  · rw [position_eq]
    exact same.trans held.held_eq
  · rw [position_eq]
    exact held.position_le
  · simpa only [bufferSize, length_eq] using held.returned_le

/-- How many of the held bytes are before the limit. -/
def beforeLimit (stream : CodedInputStream) : ℕ :=
  (stream.buffer ++ stream.afterLimit).length - (stream.totalBytesRead - stream.currentLimit)

theorem recompute_eq (held : stream.Held) :
    stream.recomputeBufferLimits = { stream with
      buffer := (stream.buffer ++ stream.afterLimit).take (beforeLimit stream)
      afterLimit := (stream.buffer ++ stream.afterLimit).drop (beforeLimit stream) } := by
  rcases held with ⟨_, read_eq, read_le, short, _, _, _, _, _⟩
  by_cases inside : stream.currentLimit < stream.totalBytesRead
  · have minimum : min stream.currentLimit stream.totalBytesLimit = stream.currentLimit := by
      omega
    simp only [recomputeBufferLimits, minimum, if_pos inside, beforeLimit]
  · have outside : ¬min stream.currentLimit stream.totalBytesLimit < stream.totalBytesRead := by
      omega
    have all : beforeLimit stream = (stream.buffer ++ stream.afterLimit).length := by
      rw [beforeLimit, Nat.sub_eq_zero_of_le (Nat.le_of_not_lt inside), Nat.sub_zero]
    simp only [recomputeBufferLimits, if_neg outside, all, List.take_length, List.drop_length]

/-- Recomputing the limits makes a stream coherent. -/
theorem recompute (held : stream.Held) :
    stream.recomputeBufferLimits.Coherent ∧
      stream.recomputeBufferLimits.currentPosition = stream.currentPosition := by
  have position_add := held.position_add
  have position_le := held.position_le
  have whole_length : (stream.buffer ++ stream.afterLimit).length =
      stream.bufferSize + stream.afterLimit.length := List.length_append
  rw [held.recompute_eq]
  rcases held.resplit (List.take_append_drop (beforeLimit stream) _) with ⟨resplit, position_eq⟩
  have after_length : ((stream.buffer ++ stream.afterLimit).drop (beforeLimit stream)).length =
      stream.totalBytesRead - stream.currentLimit := by
    rw [List.length_drop, beforeLimit]
    omega
  exact ⟨⟨resplit, after_length⟩, position_eq⟩

end Held

namespace Coherent

/-- The buffer is the front of what is visible. -/
theorem visible_eq (coherent : stream.Coherent) :
    stream.visible = stream.buffer ++
      (stream.input.data.drop stream.totalBytesRead).take
        (stream.currentLimit - stream.totalBytesRead) := by
  have held_eq := coherent.held_eq
  have position_add := coherent.position_add
  have position_le := coherent.position_le
  have afterLimit_eq := coherent.afterLimit_eq
  rw [visible]
  generalize stream.currentPosition = position at *
  by_cases inside : stream.totalBytesRead ≤ stream.currentLimit
  · have none_after : stream.afterLimit = [] := List.length_eq_zero_iff.mp (by omega)
    have count : stream.currentLimit - position =
        (stream.totalBytesRead - position) + (stream.currentLimit - stream.totalBytesRead) := by
      omega
    rw [none_after, List.append_nil] at held_eq
    rw [count, List.take_add, ← held_eq, List.drop_drop,
      Nat.add_sub_of_le (show position ≤ stream.totalBytesRead by omega)]
  · have buffer_eq : stream.buffer = (stream.buffer ++ stream.afterLimit).take stream.bufferSize :=
      List.take_left.symm
    have none_behind : stream.currentLimit - stream.totalBytesRead = 0 := by omega
    rw [none_behind, List.take_zero, List.append_nil, buffer_eq, held_eq, List.take_take]
    congr 1
    omega

theorem visible_length (coherent : stream.Coherent) :
    stream.currentPosition + stream.visible.length =
      min stream.currentLimit stream.input.data.length := by
  have position_le := coherent.position_le
  have position_add := coherent.position_add
  have read_eq := coherent.read_eq
  have read_le := coherent.read_le
  rw [visible, List.length_take, List.length_drop]
  omega

theorem bufferSize_le (coherent : stream.Coherent) :
    stream.bufferSize ≤ stream.visible.length := by
  rw [coherent.visible_eq, List.length_append, bufferSize]
  omega

theorem take_buffer (coherent : stream.Coherent) {count : ℕ} (le : count ≤ stream.bufferSize) :
    stream.visible.take count = stream.buffer.take count := by
  rw [coherent.visible_eq, List.take_append_of_le_length le]

/-- The position tells what is visible. -/
theorem moved_of_position (next_coherent : next.Coherent) (alike : Alike stream next) {count : ℕ}
    (position_eq : next.currentPosition = stream.currentPosition + count) :
    Moved stream next (stream.visible.drop count) where
  toAlike := alike
  coherent := next_coherent
  visible_eq := by
    rw [visible, visible, alike.data_eq, alike.currentLimit_eq, position_eq, List.drop_take,
      List.drop_drop, Nat.sub_sub]
  suffix := List.drop_suffix count _

/-- Reading on within the buffer. -/
theorem advance (coherent : stream.Coherent) {amount : ℕ} (le : amount ≤ stream.bufferSize) :
    Moved stream (stream.advance amount) (stream.visible.drop amount) := by
  have position_add := coherent.position_add
  have held_le := coherent.held_le
  have size_le := coherent.bufferSize_le
  have length_eq := coherent.visible_length
  have afterLimit_eq := coherent.afterLimit_eq
  have size_eq : (stream.advance amount).bufferSize = stream.bufferSize - amount := by
    simp only [CodedInputStream.advance, bufferSize, List.length_drop]
  have position_eq : (stream.advance amount).currentPosition =
      stream.currentPosition + amount := by
    rw [currentPosition, size_eq]
    simp only [CodedInputStream.advance]
    omega
  have held_eq : (stream.advance amount).buffer ++ stream.afterLimit =
      (stream.input.data.drop (stream.advance amount).currentPosition).take
        (stream.totalBytesRead - (stream.advance amount).currentPosition) := by
    have dropped := congrArg (List.drop amount) coherent.held_eq
    rw [List.drop_append_of_le_length le, List.drop_take, List.drop_drop, Nat.sub_sub] at dropped
    rw [position_eq]
    exact dropped
  have returned_le := coherent.returned_le
  have next_held_le : (stream.advance amount).bufferSize + stream.afterLimit.length ≤
      stream.totalBytesRead := by omega
  have next_position_le : (stream.advance amount).currentPosition ≤ stream.currentLimit := by
    omega
  have next_returned_le : (stream.advance amount).bufferSize + stream.afterLimit.length = 0 ∨
      (stream.advance amount).bufferSize + stream.afterLimit.length ≤
        stream.input.lastReturnedSize := by omega
  have next_coherent : (stream.advance amount).Coherent :=
    ⟨⟨coherent.overflow_eq, coherent.read_eq, coherent.read_le, coherent.short, coherent.limit_le,
      next_held_le, held_eq, next_position_le, next_returned_le⟩, afterLimit_eq⟩
  have alike : Alike stream (stream.advance amount) := ⟨rfl, rfl, rfl, rfl, rfl, rfl⟩
  exact moved_of_position next_coherent alike position_eq

/-- The stream after a block has been returned. -/
def filled (stream : CodedInputStream) (block : List UInt8) : CodedInputStream :=
  { stream with
    input := { stream.input with
      lastReturnedSize := block.length
      position := stream.input.position + block.length }
    buffer := block
    totalBytesRead := stream.totalBytesRead + block.length }

/-- There is a next block if the array has not come to its end. -/
theorem exists_block (inside : stream.input.position < stream.input.data.length) :
    ∃ block, stream.input.next = (some block, (filled stream block).input) ∧ block ≠ [] ∧
      block = (stream.input.data.drop stream.input.position).take block.length ∧
      stream.input.position + block.length ≤ stream.input.data.length := by
  have positive := stream.input.blockSize_pos (List.ne_nil_of_length_pos (by omega))
  have length_eq : ((stream.input.data.drop stream.input.position).take
      (min stream.input.blockSize (stream.input.data.length - stream.input.position))).length =
        min stream.input.blockSize (stream.input.data.length - stream.input.position) := by
    rw [List.length_take, List.length_drop]
    omega
  refine ⟨(stream.input.data.drop stream.input.position).take
    (min stream.input.blockSize (stream.input.data.length - stream.input.position)), ?_, ?_, ?_, ?_⟩
  · simp only [ArrayInputStream.next, if_pos inside, filled, length_eq]
  · exact List.ne_nil_of_length_pos (by omega)
  · rw [length_eq]
  · rw [length_eq]
    omega

section Refresh

variable (coherent : stream.Coherent) (empty : stream.buffer = [])
  (unlimited : ¬(0 < stream.afterLimit.length ∨ 0 < stream.overflowBytes ∨
    stream.totalBytesRead = stream.currentLimit))

include coherent empty unlimited

theorem held_filled {block : List UInt8}
    (block_eq : block = (stream.input.data.drop stream.input.position).take block.length)
    (fits : stream.input.position + block.length ≤ stream.input.data.length) :
    (filled stream block).Held ∧
      (filled stream block).currentPosition = stream.currentPosition := by
  have size_zero : stream.bufferSize = 0 := by rw [bufferSize, empty, List.length_nil]
  have position_add := coherent.position_add
  have read_eq := coherent.read_eq
  have none_after : stream.afterLimit = [] := List.length_eq_zero_iff.mp (by omega)
  have position_eq : (filled stream block).currentPosition = stream.input.position := by
    simp only [currentPosition, filled, bufferSize, none_after, List.length_nil]
    omega
  have same_position : stream.input.position = stream.currentPosition := by omega
  have position_le := coherent.position_le
  refine ⟨⟨coherent.overflow_eq, ?_, fits, coherent.short, coherent.limit_le, ?_, ?_, ?_, ?_⟩,
    position_eq.trans same_position⟩
  · simp only [filled, read_eq]
  · simp only [filled, bufferSize, none_after, List.length_nil]
    omega
  · rw [position_eq]
    simp only [filled, none_after, List.append_nil, read_eq, Nat.add_sub_cancel_left]
    exact block_eq
  · rw [position_eq, same_position]
    exact position_le
  · right
    simp only [filled, bufferSize, none_after, List.length_nil, Nat.add_zero, le_refl]

/-- A refresh that finds a block finds visible bytes. -/
theorem refresh_filled {block : List UInt8} (nonempty : block ≠ [])
    (next_eq : stream.input.next = (some block, (filled stream block).input))
    (block_eq : block = (stream.input.data.drop stream.input.position).take block.length)
    (fits : stream.input.position + block.length ≤ stream.input.data.length) :
    ∃ next, stream.refresh = (true, next) ∧ next.buffer ≠ [] ∧
      Moved stream next stream.visible := by
  have short := coherent.short
  have limit_le := coherent.limit_le
  have read_eq := coherent.read_eq
  have afterLimit_eq := coherent.afterLimit_eq
  have block_pos := List.length_pos_of_ne_nil nonempty
  have none_after : stream.afterLimit = [] := List.length_eq_zero_iff.mp (by omega)
  have no_overflow : stream.totalBytesRead ≤ intMax - block.length := by omega
  rcases coherent.held_filled empty unlimited block_eq fits with ⟨held, position_eq⟩
  rcases held.recompute with ⟨recomputed, recomputed_position⟩
  have alike : Alike stream (filled stream block).recomputeBufferLimits := by
    rw [held.recompute_eq]
    exact ⟨rfl, rfl, rfl, rfl, rfl, rfl⟩
  have refreshed : stream.refresh = (true, (filled stream block).recomputeBufferLimits) := by
    simp only [CodedInputStream.refresh, if_neg unlimited, next_eq, if_pos no_overflow]
    rfl
  refine ⟨_, refreshed, ?_, ?_⟩
  · rw [held.recompute_eq]
    apply List.ne_nil_of_length_pos
    simp only [Held.beforeLimit, filled, none_after, List.append_nil, List.length_take]
    omega
  · have position_same : (filled stream block).recomputeBufferLimits.currentPosition =
        stream.currentPosition + 0 := recomputed_position.trans position_eq
    exact moved_of_position recomputed alike position_same

end Refresh

/-- A refresh of an empty buffer finds more of what is visible, unless nothing is. -/
theorem refresh (coherent : stream.Coherent) (empty : stream.buffer = []) :
    (stream.visible = [] ∧ ∃ next, stream.refresh = (false, next) ∧ next.buffer = [] ∧
      Moved stream next []) ∨
    (∃ next, stream.refresh = (true, next) ∧ next.buffer ≠ [] ∧
      Moved stream next stream.visible) := by
  have visible_eq := coherent.visible_eq
  have afterLimit_eq := coherent.afterLimit_eq
  have read_eq := coherent.read_eq
  have overflow_eq := coherent.overflow_eq
  rw [empty, List.nil_append] at visible_eq
  by_cases limited : 0 < stream.afterLimit.length ∨ 0 < stream.overflowBytes ∨
      stream.totalBytesRead = stream.currentLimit
  · left
    have nothing : stream.visible = [] := by
      rw [visible_eq, Nat.sub_eq_zero_of_le (by omega), List.take_zero]
    exact ⟨nothing, stream, if_pos limited, empty, nothing ▸ .refl coherent⟩
  · by_cases inside : stream.input.position < stream.input.data.length
    · right
      rcases exists_block inside with ⟨block, next_eq, nonempty, block_eq, fits⟩
      exact coherent.refresh_filled empty limited nonempty next_eq block_eq fits
    · left
      have nothing : stream.visible = [] := by
        rw [visible_eq, List.drop_of_length_le (by omega), List.take_nil]
      have next_eq : stream.input.next =
          (none, { stream.input with lastReturnedSize := 0 }) := if_neg inside
      have none_after : stream.afterLimit = [] := List.length_eq_zero_iff.mp (by omega)
      have refreshed : stream.refresh =
          (false, { stream with input := { stream.input with lastReturnedSize := 0 } }) := by
        simp only [CodedInputStream.refresh, if_neg limited, next_eq, ← empty]
      have none_held : stream.bufferSize + stream.afterLimit.length = 0 := by
        rw [bufferSize, empty, none_after]
        rfl
      have held := coherent.toHeld
      have next_coherent :
          { stream with input := { stream.input with lastReturnedSize := 0 } }.Coherent :=
        ⟨⟨overflow_eq, read_eq, held.read_le, held.short, held.limit_le, held.held_le,
          held.held_eq, held.position_le, Or.inl none_held⟩, afterLimit_eq⟩
      exact ⟨nothing, _, refreshed, empty, ⟨rfl, rfl, rfl, rfl, rfl, rfl⟩, next_coherent, nothing,
        List.nil_suffix⟩

end Coherent

end Gsp.Protobuf.CodedInputStream
