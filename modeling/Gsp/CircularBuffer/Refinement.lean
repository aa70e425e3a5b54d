import Gsp.CircularBuffer.Invariant
import Gsp.Lib.Fifo

/-!
# The circular buffer refines a queue

The users of a buffer write, peek, remove and reset. Through `contents` every
run of these calls is a run of the queue machine with the same answers, and in
every state reached the two regions and the offered window are sound.
-/

namespace Gsp.CircularBuffer

/-- One call as its users make it: a write asks for the free space, then stores
and commits if the bytes fit. -/
def exec (buffer : CircularBuffer) :
    Fifo.Request UInt8 → Fifo.Answer UInt8 × CircularBuffer
  | .write bytes =>
      let (free, queried) := buffer.getFreeSpaceSize
      if bytes.length ≤ free then
        (.stored true, (queried.store bytes).commit bytes.length)
      else (.stored false, queried)
  | .peek => (.seen buffer.peek, buffer)
  | .remove count => (.done, buffer.remove count)
  | .reset => (.done, buffer.bufferReset)

/-- Calls on a buffer fresh from its constructor. -/
def machine (raw : ℕ → UInt8) (capacity : ℕ) :
    Machine CircularBuffer (Fifo.Request UInt8 × Fifo.Answer UInt8) where
  Initial buffer := buffer = construct raw capacity
  Step buffer label next := buffer.exec label.1 = (label.2, next)

/-- The offset belongs to a stored byte. -/
def Stored (buffer : CircularBuffer) (offset : ℕ) : Prop :=
  (buffer.mARegionPointer ≤ offset ∧ offset < buffer.mARegionPointer + buffer.mARegionSize) ∨
    ∃ pointer, buffer.mBRegionPointer = some pointer ∧ pointer ≤ offset ∧
      offset < pointer + buffer.mBRegionSize

/-- The two free-space computations are exact over the integers. -/
def Unwrapped (buffer : CircularBuffer) : Prop :=
  (buffer.getAFreeSpace : ℤ) =
      (buffer.mBufferEnd : ℤ) - buffer.mARegionPointer - buffer.mARegionSize ∧
    ∀ pointer, buffer.mBRegionPointer = some pointer →
      (buffer.getBFreeSpace : ℤ) =
        (buffer.mARegionPointer : ℤ) - pointer - buffer.mBRegionSize

/-- Regions inside the block and disjoint, and a sound window. -/
structure Sound (buffer : CircularBuffer) : Prop where
  insideA : buffer.mARegionPointer + buffer.mARegionSize ≤ buffer.mCapacity
  insideB : ∀ pointer, buffer.mBRegionPointer = some pointer →
    pointer + buffer.mBRegionSize ≤ buffer.mCapacity
  disjoint : ∀ pointer, buffer.mBRegionPointer = some pointer →
    pointer + buffer.mBRegionSize ≤ buffer.mARegionPointer ∨
      buffer.mARegionPointer + buffer.mARegionSize ≤ pointer
  windowInside : buffer.getFreeSpaceSize.2.getBuffer + buffer.getFreeSpaceSize.1 ≤ buffer.mCapacity
  windowUnused : ∀ offset, buffer.getFreeSpaceSize.2.getBuffer ≤ offset →
    offset < buffer.getFreeSpaceSize.2.getBuffer + buffer.getFreeSpaceSize.1 →
    ¬buffer.getFreeSpaceSize.2.Stored offset
  queryStable : buffer.getFreeSpaceSize.2.getFreeSpaceSize = buffer.getFreeSpaceSize
  unwrapped : buffer.Unwrapped ∧ buffer.getFreeSpaceSize.2.Unwrapped
  storedSize : buffer.getStoredSize = buffer.contents.length

namespace WellFormed

variable {buffer : CircularBuffer}

theorem unwrapped (wellFormed : buffer.WellFormed) : buffer.Unwrapped := by
  have bufferEnd := wellFormed.bufferEnd
  have regionA := wellFormed.regionA
  constructor
  · rw [wellFormed.getAFreeSpace_eq]
    omega
  · intro pointer allocated
    have below := wellFormed.regionB pointer allocated
    rw [wellFormed.getBFreeSpace_eq allocated]
    omega

theorem not_stored_of_window (wellFormed : buffer.WellFormed) {free offset : ℕ}
    (offered : buffer.Offered free) (lower : buffer.getBuffer ≤ offset)
    (upper : offset < buffer.getBuffer + free) : ¬buffer.Stored offset := by
  rintro (⟨lowerA, upperA⟩ | ⟨pointer, allocated, lowerB, upperB⟩)
  · rcases wellFormed.window_disjoint_A offered with behind | below
    · omega
    · omega
  · have position : buffer.getBuffer = pointer + buffer.mBRegionSize := by
      simp [getBuffer, allocated]
    omega

theorem sound (wellFormed : buffer.WellFormed) : buffer.Sound := by
  have regionA := wellFormed.regionA
  have queried := wellFormed.getFreeSpaceSize
  have offered := wellFormed.offered_getFreeSpaceSize
  have capacity_eq : buffer.getFreeSpaceSize.2.mCapacity = buffer.mCapacity := by
    rcases wellFormed.getFreeSpaceSize_cases with
      ⟨_, answer⟩ | ⟨_, _, _, answer⟩ | ⟨_, _, answer⟩ <;> rw [answer]
    rfl
  constructor
  · exact regionA
  · intro pointer allocated
    have below := wellFormed.regionB pointer allocated
    omega
  · intro pointer allocated
    have below := wellFormed.regionB pointer allocated
    omega
  · rw [← capacity_eq]
    exact queried.window_inside offered
  · intro offset lower upper
    exact queried.not_stored_of_window offered lower upper
  · exact offered
  · exact ⟨wellFormed.unwrapped, queried.unwrapped⟩
  · exact wellFormed.length_contents.symm

/-- One call keeps the invariant and is a step of the queue. -/
theorem exec (wellFormed : buffer.WellFormed) (request : Fifo.Request UInt8) :
    (buffer.exec request).2.WellFormed ∧
      Fifo.Step buffer.contents (request, (buffer.exec request).1)
        (buffer.exec request).2.contents := by
  cases request with
  | write bytes =>
      have queried := wellFormed.getFreeSpaceSize
      have offered := wellFormed.offered_getFreeSpaceSize
      have same := wellFormed.contents_getFreeSpaceSize
      by_cases fits : bytes.length ≤ buffer.getFreeSpaceSize.1
      · simp only [CircularBuffer.exec, fits, if_true]
        refine ⟨queried.store_commit offered fits, ?_⟩
        rw [queried.contents_store_commit offered fits, same]
        exact .accept buffer.contents bytes
      · simp only [CircularBuffer.exec, fits, if_false]
        refine ⟨queried, ?_⟩
        rw [same]
        exact .refuse buffer.contents bytes
  | peek =>
      refine ⟨wellFormed, ?_⟩
      simp only [CircularBuffer.exec, wellFormed.peek_eq_bytesA]
      apply Fifo.Step.peek
      intro something nothing
      have empty : buffer.mARegionSize = 0 := by
        rw [← length_bytesA, nothing, List.length_nil]
      exact something (wellFormed.contents_eq_nil_iff.mpr empty)
  | remove count =>
      refine ⟨wellFormed.remove count, ?_⟩
      simp only [CircularBuffer.exec, wellFormed.contents_remove]
      have dropped := Fifo.Step.remove buffer.contents count
      rcases Nat.le_total count buffer.contents.length with some | all
      · rwa [min_eq_left some] at dropped
      · rw [min_eq_right all, List.drop_length] at dropped
        rwa [List.drop_eq_nil_of_le all]
  | reset =>
      refine ⟨wellFormed.bufferReset, ?_⟩
      simp only [CircularBuffer.exec, contents_bufferReset]
      exact .reset buffer.contents

end WellFormed

variable {raw : ℕ → UInt8} {capacity : ℕ}

/-- Every run of calls on a new buffer is, through `contents`, a run of the
queue with the same answers, and ends in a sound state. -/
theorem refines_fifo (capacity_lt : capacity < 2 ^ 64) {last : CircularBuffer}
    {steps : List (CircularBuffer × (Fifo.Request UInt8 × Fifo.Answer UInt8))}
    (run : (machine raw capacity).Run (construct raw capacity) steps last) :
    (∃ images, (Fifo.machine UInt8).Run [] images last.contents ∧
      images.map Prod.snd = steps.map Prod.snd) ∧ last.Sound := by
  have start : (construct raw capacity).WellFormed ∧ (construct raw capacity).contents = [] :=
    ⟨WellFormed.construct raw capacity_lt, contents_construct raw capacity⟩
  have simulated := run.simulate (Fifo.machine UInt8)
    (fun buffer queue => buffer.WellFormed ∧ buffer.contents = queue) start (by
      rintro buffer queue ⟨request, answer⟩ next ⟨wellFormed, rfl⟩ step
      have called : buffer.exec request = (answer, next) := step
      have result := wellFormed.exec request
      rw [called] at result
      exact ⟨next.contents, result.2, result.1, rfl⟩)
  rcases simulated with ⟨images, queue, imagesRun, ⟨wellFormed, rfl⟩, labels⟩
  exact ⟨⟨images, imagesRun, labels⟩, wellFormed.sound⟩

/-- A buffer of four bytes after `write [1, 2, 3]`, `remove 2`, `write [4, 5]`:
the last write went to region B. -/
theorem refines_fifo_four :
    ∃ steps last, (machine (fun _ => 0) 4).Run (construct (fun _ => 0) 4) steps last ∧
      steps.map (fun step => step.2) =
        [(.write [1, 2, 3], .stored true), (.remove 2, .done), (.write [4, 5], .stored true)] ∧
      last.contents = [3, 4, 5] ∧ last.mBRegionPointer = some 0 ∧ last.Sound := by
  have written := Machine.Run.snoc (.nil (construct (fun _ => 0) 4))
    (show (machine (fun _ => 0) 4).Step _ (.write [1, 2, 3], .stored true) _ from rfl)
  have removed := written.snoc
    (show (machine (fun _ => 0) 4).Step _ (.remove 2, .done) _ from rfl)
  have wrapped := removed.snoc
    (show (machine (fun _ => 0) 4).Step _ (.write [4, 5], .stored true) _ from rfl)
  exact ⟨_, _, wrapped, rfl, by decide, by decide, (refines_fifo (by decide) wrapped).2⟩

end Gsp.CircularBuffer
