import Gsp.CircularBuffer.Basic

/-!
# The invariant of the circular buffer

Region B, once allocated, starts at the block and stays below region A, and
region A is empty only when the whole buffer is. `WellFormed` says this, every
operation keeps it, and `contents` is the byte sequence the two regions stand
for. Each operation has one lemma for the invariant and one for the contents.

A window is `Offered` when the free-space query returns it without changing the
buffer; this holds after any query and until the next commit or removal.
-/

namespace Gsp.CircularBuffer

/-- The invariant between calls. -/
structure WellFormed (buffer : CircularBuffer) : Prop where
  bufferEnd : buffer.mBufferEnd = buffer.mCapacity
  capacity_lt : buffer.mCapacity < 2 ^ 64
  regionA : buffer.mARegionPointer + buffer.mARegionSize ≤ buffer.mCapacity
  emptyA : buffer.mARegionSize = 0 →
    buffer.mARegionPointer = 0 ∧ buffer.mBRegionPointer = none
  withoutB : buffer.mBRegionPointer = none → buffer.mBRegionSize = 0
  regionB : ∀ pointer, buffer.mBRegionPointer = some pointer →
    pointer = 0 ∧ buffer.mBRegionSize ≤ buffer.mARegionPointer

/-- The bytes of region A. -/
def bytesA (buffer : CircularBuffer) : List UInt8 :=
  Region.read buffer.mBuffer buffer.mARegionPointer buffer.mARegionSize

/-- The bytes of region B. -/
def bytesB (buffer : CircularBuffer) : List UInt8 :=
  match buffer.mBRegionPointer with
  | none => []
  | some pointer => Region.read buffer.mBuffer pointer buffer.mBRegionSize

/-- Region A then region B. -/
def contents (buffer : CircularBuffer) : List UInt8 :=
  buffer.bytesA ++ buffer.bytesB

/-- The free-space query answers `free` and leaves the buffer as it is. -/
def Offered (buffer : CircularBuffer) (free : ℕ) : Prop :=
  buffer.getFreeSpaceSize = (free, buffer)

@[simp]
theorem length_bytesA (buffer : CircularBuffer) : buffer.bytesA.length = buffer.mARegionSize := by
  simp [bytesA]

@[simp]
theorem capacity_getFreeSpaceSize (buffer : CircularBuffer) :
    buffer.getFreeSpaceSize.2.mCapacity = buffer.mCapacity := by
  simp only [getFreeSpaceSize, allocateB]
  split
  · rfl
  · split <;> rfl

@[simp]
theorem capacity_store (buffer : CircularBuffer) (bytes : List UInt8) :
    (buffer.store bytes).mCapacity = buffer.mCapacity := rfl

@[simp]
theorem capacity_commit (buffer : CircularBuffer) (len : ℕ) :
    (buffer.commit len).mCapacity = buffer.mCapacity := by
  simp only [commit]
  split <;> rfl

@[simp]
theorem capacity_remove (buffer : CircularBuffer) (len : ℕ) :
    (buffer.remove len).mCapacity = buffer.mCapacity := by
  simp only [remove, removeFromA, removeFromB, switchToA]
  grind

/-- A query moves no stored byte. -/
theorem regions_getFreeSpaceSize (buffer : CircularBuffer) :
    buffer.getFreeSpaceSize.2.mARegionPointer = buffer.mARegionPointer ∧
      buffer.getFreeSpaceSize.2.mARegionSize = buffer.mARegionSize ∧
      buffer.getFreeSpaceSize.2.mBRegionSize = buffer.mBRegionSize := by
  simp only [getFreeSpaceSize, allocateB]
  split
  · exact ⟨rfl, rfl, rfl⟩
  · split <;> exact ⟨rfl, rfl, rfl⟩

/-- New bytes lengthen one of the two regions. -/
theorem regions_store_commit (buffer : CircularBuffer) (bytes : List UInt8) (len : ℕ) :
    ((buffer.store bytes).commit len).mARegionPointer = buffer.mARegionPointer ∧
      (((buffer.store bytes).commit len).mARegionSize = buffer.mARegionSize + len ∧
          ((buffer.store bytes).commit len).mBRegionSize = buffer.mBRegionSize ∨
        ((buffer.store bytes).commit len).mARegionSize = buffer.mARegionSize ∧
          ((buffer.store bytes).commit len).mBRegionSize = buffer.mBRegionSize + len) := by
  by_cases allocated : (buffer.store bytes).mBRegionPointer.isSome = true
  · rw [commit, if_pos allocated]
    exact ⟨rfl, Or.inr ⟨rfl, rfl⟩⟩
  · rw [commit, if_neg allocated]
    exact ⟨rfl, Or.inl ⟨rfl, rfl⟩⟩

namespace WellFormed

variable {buffer : CircularBuffer}

theorem length_bytesB (wellFormed : buffer.WellFormed) :
    buffer.bytesB.length = buffer.mBRegionSize := by
  unfold bytesB
  cases allocated : buffer.mBRegionPointer with
  | none => simp [wellFormed.withoutB allocated]
  | some pointer => simp

theorem length_contents (wellFormed : buffer.WellFormed) :
    buffer.contents.length = buffer.getStoredSize := by
  simp [contents, getStoredSize, wellFormed.length_bytesB]

theorem getAFreeSpace_eq (wellFormed : buffer.WellFormed) :
    buffer.getAFreeSpace = buffer.mCapacity - buffer.mARegionPointer - buffer.mARegionSize := by
  have regionA := wellFormed.regionA
  have capacity_lt := wellFormed.capacity_lt
  have bufferEnd := wellFormed.bufferEnd
  have behind : Word.sub64 buffer.mBufferEnd buffer.mARegionPointer =
      buffer.mBufferEnd - buffer.mARegionPointer := Word.sub64_eq (by omega) (by omega)
  rw [getAFreeSpace, behind, Word.sub64_eq (by omega) (by omega), bufferEnd]

theorem getBFreeSpace_eq (wellFormed : buffer.WellFormed) {pointer : ℕ}
    (allocated : buffer.mBRegionPointer = some pointer) :
    buffer.getBFreeSpace = buffer.mARegionPointer - buffer.mBRegionSize := by
  have regionA := wellFormed.regionA
  have capacity_lt := wellFormed.capacity_lt
  rcases wellFormed.regionB pointer allocated with ⟨start, below⟩
  have between : Word.sub64 buffer.mARegionPointer pointer = buffer.mARegionPointer - pointer :=
    Word.sub64_eq (by omega) (by omega)
  simp only [getBFreeSpace, allocated, between]
  rw [Word.sub64_eq (by omega) (by omega)]
  omega

/-! ## The free-space query -/

/-- Region B starts at the beginning of the memory. -/
theorem allocateB (wellFormed : buffer.WellFormed) (closed : buffer.mBRegionPointer = none)
    (nonempty : buffer.mARegionSize ≠ 0) : buffer.allocateB.WellFormed where
  bufferEnd := wellFormed.bufferEnd
  capacity_lt := wellFormed.capacity_lt
  regionA := wellFormed.regionA
  emptyA := fun empty => absurd empty nonempty
  withoutB := by simp [CircularBuffer.allocateB]
  regionB := by
    intro pointer allocated
    have start : 0 = pointer := by simpa [CircularBuffer.allocateB] using allocated
    have unused : buffer.mBRegionSize = 0 := wellFormed.withoutB closed
    exact ⟨start.symm, by simp [CircularBuffer.allocateB, unused]⟩

/-- The query answers from region B, opens region B below region A, or answers
from behind region A. -/
theorem getFreeSpaceSize_cases (wellFormed : buffer.WellFormed) :
    (buffer.mBRegionPointer = some 0 ∧
      buffer.getFreeSpaceSize = (buffer.mARegionPointer - buffer.mBRegionSize, buffer)) ∨
    (buffer.mBRegionPointer = none ∧ buffer.mARegionSize ≠ 0 ∧
      buffer.mCapacity - buffer.mARegionPointer - buffer.mARegionSize < buffer.mARegionPointer ∧
      buffer.getFreeSpaceSize = (buffer.mARegionPointer, buffer.allocateB)) ∨
    (buffer.mBRegionPointer = none ∧
      buffer.mARegionPointer ≤
        buffer.mCapacity - buffer.mARegionPointer - buffer.mARegionSize ∧
      buffer.getFreeSpaceSize =
        (buffer.mCapacity - buffer.mARegionPointer - buffer.mARegionSize, buffer)) := by
  cases allocated : buffer.mBRegionPointer with
  | some pointer =>
      have start := (wellFormed.regionB pointer allocated).1
      left
      refine ⟨by rw [start], ?_⟩
      simp [getFreeSpaceSize, allocated, wellFormed.getBFreeSpace_eq allocated]
  | none =>
      right
      by_cases narrow :
          buffer.mCapacity - buffer.mARegionPointer - buffer.mARegionSize < buffer.mARegionPointer
      · left
        have nonempty : buffer.mARegionSize ≠ 0 := by
          intro empty
          have start := (wellFormed.emptyA empty).1
          omega
        have opened := wellFormed.allocateB allocated nonempty
        have unused : buffer.mBRegionSize = 0 := wellFormed.withoutB allocated
        have window := opened.getBFreeSpace_eq rfl
        refine ⟨rfl, nonempty, narrow, ?_⟩
        simp only [getFreeSpaceSize, allocated, wellFormed.getAFreeSpace_eq, getSpaceBeforeA,
          Option.isSome_none, Bool.false_eq_true, if_false, narrow, if_true, window]
        simp [CircularBuffer.allocateB, unused]
      · right
        refine ⟨rfl, by omega, ?_⟩
        simp [getFreeSpaceSize, allocated, wellFormed.getAFreeSpace_eq, getSpaceBeforeA, narrow]

/-- Asking for the free space keeps the buffer well formed. -/
theorem getFreeSpaceSize (wellFormed : buffer.WellFormed) :
    buffer.getFreeSpaceSize.2.WellFormed := by
  rcases wellFormed.getFreeSpaceSize_cases with
    ⟨_, answer⟩ | ⟨closed, nonempty, _, answer⟩ | ⟨_, _, answer⟩
  · rwa [answer]
  · rw [answer]
    exact wellFormed.allocateB closed nonempty
  · rwa [answer]

/-- Asking for the free space stores nothing. -/
theorem contents_getFreeSpaceSize (wellFormed : buffer.WellFormed) :
    buffer.getFreeSpaceSize.2.contents = buffer.contents := by
  rcases wellFormed.getFreeSpaceSize_cases with
    ⟨_, answer⟩ | ⟨closed, _, _, answer⟩ | ⟨_, _, answer⟩
  · rw [answer]
  · rw [answer]
    have unused : buffer.mBRegionSize = 0 := wellFormed.withoutB closed
    simp [contents, bytesA, bytesB, CircularBuffer.allocateB, closed, unused]
  · rw [answer]

/-- A second query returns the same value and changes nothing more. -/
theorem offered_getFreeSpaceSize (wellFormed : buffer.WellFormed) :
    buffer.getFreeSpaceSize.2.Offered buffer.getFreeSpaceSize.1 := by
  rcases wellFormed.getFreeSpaceSize_cases with
    ⟨_, answer⟩ | ⟨closed, nonempty, _, answer⟩ | ⟨_, _, answer⟩
  · rw [answer]
    exact answer
  · rw [answer]
    have opened := wellFormed.allocateB closed nonempty
    have unused : buffer.mBRegionSize = 0 := wellFormed.withoutB closed
    have window : buffer.allocateB.getBFreeSpace = buffer.mARegionPointer := by
      rw [opened.getBFreeSpace_eq rfl]
      simp [CircularBuffer.allocateB, unused]
    have allocated : buffer.allocateB.mBRegionPointer.isSome = true := rfl
    change buffer.allocateB.getFreeSpaceSize = (buffer.mARegionPointer, buffer.allocateB)
    rw [CircularBuffer.getFreeSpaceSize, if_pos allocated, window]
  · rw [answer]
    exact answer

/-! ## The offered window -/

/-- The two shapes of an offered window: behind region B and below region A, or
behind region A. -/
theorem offered_cases (wellFormed : buffer.WellFormed) {free : ℕ} (offered : buffer.Offered free) :
    (buffer.mBRegionPointer = some 0 ∧ buffer.getBuffer = buffer.mBRegionSize ∧
      buffer.mBRegionSize + free = buffer.mARegionPointer) ∨
    (buffer.mBRegionPointer = none ∧
      buffer.getBuffer = buffer.mARegionPointer + buffer.mARegionSize ∧
      buffer.getBuffer + free = buffer.mCapacity ∧ buffer.mARegionPointer ≤ free) := by
  unfold Offered at offered
  rcases wellFormed.getFreeSpaceSize_cases with
    ⟨allocated, answer⟩ | ⟨closed, _, _, answer⟩ | ⟨closed, wide, answer⟩
  · left
    have below := (wellFormed.regionB 0 allocated).2
    have free_eq := congrArg Prod.fst (answer.symm.trans offered)
    simp only at free_eq
    refine ⟨allocated, by simp [getBuffer, allocated], by omega⟩
  · have unchanged := congrArg (fun result => result.2.mBRegionPointer) (answer.symm.trans offered)
    simp [CircularBuffer.allocateB, closed] at unchanged
  · right
    have regionA := wellFormed.regionA
    have free_eq := congrArg Prod.fst (answer.symm.trans offered)
    simp only at free_eq
    have position : buffer.getBuffer = buffer.mARegionPointer + buffer.mARegionSize := by
      simp [getBuffer, closed]
    exact ⟨closed, position, by omega, by omega⟩

/-- The offered window lies in the memory. -/
theorem window_inside (wellFormed : buffer.WellFormed) {free : ℕ}
    (offered : buffer.Offered free) : buffer.getBuffer + free ≤ buffer.mCapacity := by
  have regionA := wellFormed.regionA
  rcases wellFormed.offered_cases offered with ⟨_, position, window⟩ | ⟨_, _, window, _⟩
  · omega
  · omega

theorem window_disjoint_A (wellFormed : buffer.WellFormed) {free : ℕ}
    (offered : buffer.Offered free) :
    buffer.mARegionPointer + buffer.mARegionSize ≤ buffer.getBuffer ∨
      buffer.getBuffer + free ≤ buffer.mARegionPointer := by
  rcases wellFormed.offered_cases offered with ⟨_, position, window⟩ | ⟨_, position, _⟩
  · right
    omega
  · left
    omega

/-! ## Storing and committing -/

/-- Bytes stored in the window and committed keep the buffer well formed. -/
theorem store_commit (wellFormed : buffer.WellFormed) {free : ℕ} (offered : buffer.Offered free)
    {bytes : List UInt8} (fits : bytes.length ≤ free) :
    ((buffer.store bytes).commit bytes.length).WellFormed := by
  have regionA := wellFormed.regionA
  rcases wellFormed.offered_cases offered with
    ⟨allocated, position, window⟩ | ⟨closed, position, window, _⟩
  · have nonempty : buffer.mARegionSize ≠ 0 := by
      intro empty
      simp [(wellFormed.emptyA empty).2] at allocated
    constructor <;> simp only [store, commit, allocated, Option.isSome_some, if_true]
    · exact wellFormed.bufferEnd
    · exact wellFormed.capacity_lt
    · exact regionA
    · exact fun empty => absurd empty nonempty
    · simp
    · rintro pointer start
      exact ⟨by simpa using start.symm, by omega⟩
  · have unused := wellFormed.withoutB closed
    constructor <;>
      simp only [store, commit, closed, Option.isSome_none, Bool.false_eq_true, if_false]
    · exact wellFormed.bufferEnd
    · exact wellFormed.capacity_lt
    · omega
    · intro empty
      exact ⟨(wellFormed.emptyA (by omega)).1, trivial⟩
    · exact fun _ => unused
    · simp

/-- Region A keeps its start and its bytes when something is committed; the new
bytes go behind it or into region B. -/
theorem store_commit_bytesA (wellFormed : buffer.WellFormed) {free : ℕ}
    (offered : buffer.Offered free) {bytes : List UInt8} (fits : bytes.length ≤ free) :
    ((buffer.store bytes).commit bytes.length).mARegionPointer = buffer.mARegionPointer ∧
      buffer.mARegionSize ≤ ((buffer.store bytes).commit bytes.length).mARegionSize ∧
      Region.read (buffer.store bytes).mBuffer buffer.mARegionPointer buffer.mARegionSize =
        buffer.bytesA := by
  have untouched : Region.read (buffer.store bytes).mBuffer buffer.mARegionPointer
      buffer.mARegionSize = buffer.bytesA := by
    rw [store, bytesA]
    apply Region.read_write_of_disjoint
    rcases wellFormed.window_disjoint_A offered with behind | below
    · exact Or.inl behind
    · exact Or.inr (by omega)
  refine ⟨?_, ?_, untouched⟩
  · unfold commit
    split <;> rfl
  · unfold commit
    split
    · exact le_rfl
    · exact Nat.le_add_right _ _

/-- Committed bytes go behind those that are there. -/
theorem contents_store_commit (wellFormed : buffer.WellFormed) {free : ℕ}
    (offered : buffer.Offered free) {bytes : List UInt8} (fits : bytes.length ≤ free) :
    ((buffer.store bytes).commit bytes.length).contents = buffer.contents ++ bytes := by
  have untouched := (wellFormed.store_commit_bytesA offered fits).2.2
  have stored : Region.read (buffer.store bytes).mBuffer buffer.getBuffer bytes.length = bytes :=
    Region.read_write_self ..
  rcases wellFormed.offered_cases offered with
    ⟨allocated, position, window⟩ | ⟨closed, position, _, _⟩
  · have kept : Region.read (buffer.store bytes).mBuffer 0 buffer.mBRegionSize = buffer.bytesB := by
      simp only [store, bytesB, allocated]
      apply Region.read_write_of_disjoint
      left
      omega
    rw [position] at stored
    have regionB := Region.read_add (buffer.store bytes).mBuffer 0 buffer.mBRegionSize bytes.length
    rw [Nat.zero_add, stored, kept] at regionB
    have regionA : ((buffer.store bytes).commit bytes.length).bytesA = buffer.bytesA := by
      simpa [commit, store, allocated, bytesA] using untouched
    have grown : ((buffer.store bytes).commit bytes.length).bytesB = buffer.bytesB ++ bytes := by
      simpa [commit, store, allocated, bytesB] using regionB
    rw [contents, regionA, grown, contents, List.append_assoc]
  · rw [position] at stored
    have regionA := Region.read_add (buffer.store bytes).mBuffer buffer.mARegionPointer
      buffer.mARegionSize bytes.length
    rw [stored, untouched] at regionA
    have grown : ((buffer.store bytes).commit bytes.length).bytesA = buffer.bytesA ++ bytes := by
      simpa [commit, store, closed, bytesA] using regionA
    have stillWithoutB : ((buffer.store bytes).commit bytes.length).bytesB = [] := by
      simp [commit, store, closed, bytesB]
    have unallocated : buffer.bytesB = [] := by simp [bytesB, closed]
    rw [contents, grown, stillWithoutB, contents, unallocated, List.append_nil, List.append_nil]

/-! ## Removing -/

/-- Part of region A goes; region B is not looked at. -/
theorem remove_of_lt {len : ℕ} (less : len < buffer.mARegionSize) :
    buffer.remove len =
      { buffer with
        mARegionPointer := buffer.mARegionPointer + len
        mARegionSize := buffer.mARegionSize - len } := by
  have nonempty : 0 < buffer.mARegionSize := by omega
  have notMore : ¬buffer.mARegionSize < len := by omega
  have remains : buffer.mARegionSize - len ≠ 0 := by omega
  simp [remove, removeFromA, removeFromB, switchToA, nonempty, notMore, remains]

/-- All of region A and part of region B go; what is left of B becomes region A
at the start of the block. -/
theorem remove_of_crossing (wellFormed : buffer.WellFormed) {len : ℕ}
    (all : buffer.mARegionSize ≤ len) (less : len < buffer.getStoredSize) :
    buffer.mBRegionPointer = some 0 ∧
    buffer.remove len =
      { buffer with
        mBuffer :=
          if len - buffer.mARegionSize ≠ 0 then
            Region.move buffer.mBuffer 0 (len - buffer.mARegionSize)
              (buffer.getStoredSize - len)
          else buffer.mBuffer
        mARegionPointer := 0
        mARegionSize := buffer.getStoredSize - len
        mBRegionPointer := none
        mBRegionSize := 0 } := by
  unfold getStoredSize at less ⊢
  have nonemptyB : 0 < buffer.mBRegionSize := by omega
  have allocated : buffer.mBRegionPointer = some 0 := by
    cases pointer_eq : buffer.mBRegionPointer with
    | none =>
        have unused := wellFormed.withoutB pointer_eq
        omega
    | some pointer => rw [(wellFormed.regionB pointer pointer_eq).1]
  have nonemptyA : 0 < buffer.mARegionSize := by
    by_contra empty
    have closed := (wellFormed.emptyA (by omega)).2
    simp [closed] at allocated
  refine ⟨allocated, ?_⟩
  rcases Nat.eq_or_lt_of_le all with exactly | more
  · have size_eq : buffer.mARegionSize + buffer.mBRegionSize - len = buffer.mBRegionSize := by omega
    simp [remove, removeFromA, removeFromB, switchToA, exactly, nonemptyB, allocated,
      show 0 < len by omega]
  · have rest : 0 < len - buffer.mARegionSize := by omega
    have notMore : ¬buffer.mBRegionSize < len - buffer.mARegionSize := by omega
    have remains : 0 < buffer.mBRegionSize - (len - buffer.mARegionSize) := by omega
    have size_eq : buffer.mARegionSize + buffer.mBRegionSize - len =
        buffer.mBRegionSize - (len - buffer.mARegionSize) := by omega
    have moved : len - buffer.mARegionSize ≠ 0 := by omega
    simp only [remove, removeFromA, removeFromB, switchToA, nonemptyA, more, rest, nonemptyB,
      notMore, remains, allocated, moved, size_eq, Nat.sub_self, if_true, if_false, and_self,
      Option.map_some, Nat.zero_add, ne_eq, not_false_eq_true]

/-- Everything goes: both regions start afresh. -/
theorem remove_of_ge (wellFormed : buffer.WellFormed) {len : ℕ}
    (all : buffer.getStoredSize ≤ len) :
    buffer.remove len =
      { buffer with
        mARegionPointer := 0
        mARegionSize := 0
        mBRegionPointer := none
        mBRegionSize := 0 } := by
  unfold getStoredSize at all
  rcases Nat.eq_zero_or_pos buffer.mARegionSize with emptyA | nonemptyA
  · rcases wellFormed.emptyA emptyA with ⟨_, closed⟩
    have emptyB := wellFormed.withoutB closed
    simp [remove, removeFromA, removeFromB, switchToA, emptyA, emptyB]
  · have takeA : (if buffer.mARegionSize < len then buffer.mARegionSize else len) =
        buffer.mARegionSize := by
      split <;> omega
    rcases Nat.eq_zero_or_pos buffer.mBRegionSize with emptyB | nonemptyB
    · simp [remove, removeFromA, removeFromB, switchToA, nonemptyA, takeA, emptyB]
    · have rest : 0 < len - buffer.mARegionSize := by omega
      have takeB : (if buffer.mBRegionSize < len - buffer.mARegionSize then buffer.mBRegionSize
          else len - buffer.mARegionSize) = buffer.mBRegionSize := by
        split <;> omega
      simp only [remove, removeFromA, removeFromB, switchToA, nonemptyA, takeA, rest, nonemptyB,
        takeB, Nat.sub_self, if_true, and_self, lt_irrefl, if_false]

/-- Removing keeps the buffer well formed, also past the end of region A. -/
theorem remove (wellFormed : buffer.WellFormed) (len : ℕ) : (buffer.remove len).WellFormed := by
  have regionA := wellFormed.regionA
  rcases Nat.lt_or_ge len buffer.mARegionSize with less | all
  · rw [remove_of_lt less]
    constructor
    · exact wellFormed.bufferEnd
    · exact wellFormed.capacity_lt
    · simp only
      omega
    · intro empty
      simp only at empty
      omega
    · exact wellFormed.withoutB
    · intro pointer allocated
      rcases wellFormed.regionB pointer allocated with ⟨start, below⟩
      exact ⟨start, by simp only; omega⟩
  · rcases Nat.lt_or_ge len buffer.getStoredSize with crossing | everything
    · rcases wellFormed.remove_of_crossing all crossing with ⟨allocated, removed⟩
      have below := (wellFormed.regionB 0 allocated).2
      unfold getStoredSize at crossing removed
      rw [removed]
      constructor
      · exact wellFormed.bufferEnd
      · exact wellFormed.capacity_lt
      · simp only
        omega
      · intro empty
        simp only at empty
        omega
      · simp
      · simp
    · rw [wellFormed.remove_of_ge everything]
      exact ⟨wellFormed.bufferEnd, wellFormed.capacity_lt, by simp, by simp, by simp, by simp⟩

/-- Removed bytes leave the front. -/
theorem contents_remove (wellFormed : buffer.WellFormed) (len : ℕ) :
    (buffer.remove len).contents = buffer.contents.drop len := by
  rcases Nat.lt_or_ge len buffer.mARegionSize with less | all
  · have dropped := Region.drop_read buffer.mBuffer buffer.mARegionPointer buffer.mARegionSize len
      less.le
    rw [remove_of_lt less, contents, contents, List.drop_append_of_le_length (by simp; omega)]
    simp only [bytesA, bytesB, dropped]
  · rcases Nat.lt_or_ge len buffer.getStoredSize with crossing | everything
    · rcases wellFormed.remove_of_crossing all crossing with ⟨allocated, removed⟩
      have dropped := Region.drop_read buffer.mBuffer 0 buffer.mBRegionSize
        (len - buffer.mARegionSize) (by unfold getStoredSize at crossing; omega)
      have size_eq : buffer.mBRegionSize - (len - buffer.mARegionSize) =
          buffer.getStoredSize - len := by unfold getStoredSize; omega
      rw [size_eq, Nat.zero_add] at dropped
      have regionB : buffer.bytesB = Region.read buffer.mBuffer 0 buffer.mBRegionSize := by
        simp [bytesB, allocated]
      rw [contents, contents, List.drop_append, List.drop_eq_nil_of_le (by simpa using all),
        length_bytesA, regionB, dropped, removed]
      by_cases moved : len - buffer.mARegionSize ≠ 0
      · simp [bytesA, bytesB, moved]
      · simp only [not_not] at moved
        simp [bytesA, bytesB, moved]
    · rw [wellFormed.remove_of_ge everything, List.drop_eq_nil_of_le]
      · simp [contents, bytesA, bytesB]
      · rwa [wellFormed.length_contents]

/-- When all of region A goes, region B takes its place. -/
theorem regions_remove_regionA (wellFormed : buffer.WellFormed) :
    (buffer.remove buffer.mARegionSize).mARegionSize = buffer.mBRegionSize ∧
      (buffer.remove buffer.mARegionSize).mBRegionSize = 0 := by
  rcases Nat.lt_or_ge buffer.mARegionSize buffer.getStoredSize with crossing | everything
  · rw [(wellFormed.remove_of_crossing le_rfl crossing).2]
    exact ⟨Nat.add_sub_cancel_left _ _, rfl⟩
  · rw [wellFormed.remove_of_ge everything]
    unfold getStoredSize at everything
    refine ⟨?_, rfl⟩
    simp only
    omega

theorem remove_zero (wellFormed : buffer.WellFormed) : buffer.remove 0 = buffer := by
  rcases Nat.eq_zero_or_pos buffer.mARegionSize with empty | nonempty
  · rcases wellFormed.emptyA empty with ⟨start, closed⟩
    have unused := wellFormed.withoutB closed
    rw [wellFormed.remove_of_ge (by simp [getStoredSize, empty, unused])]
    rcases buffer with ⟨memory, bufferEnd, pointerA, sizeA, pointerB, sizeB, capacity⟩
    simp only at start closed unused empty
    simp only [start, closed, unused, empty]
  · rw [remove_of_lt nonempty]
    simp

/-- Removing part of region A and then more is one removal. -/
theorem remove_remove (wellFormed : buffer.WellFormed) {first : ℕ}
    (less : first < buffer.mARegionSize) (second : ℕ) :
    (buffer.remove first).remove second = buffer.remove (first + second) := by
  have between := wellFormed.remove first
  rw [remove_of_lt less] at between ⊢
  rcases Nat.lt_or_ge (first + second) buffer.mARegionSize with lessAgain | all
  · rw [remove_of_lt lessAgain, remove_of_lt (by simp only; omega)]
    simp only [mk.injEq, true_and, and_true]
    omega
  · rcases Nat.lt_or_ge (first + second) buffer.getStoredSize with crossing | everything
    · unfold getStoredSize at crossing
      have left := (between.remove_of_crossing (show _ ≤ second by simp only; omega)
        (by simp only [getStoredSize]; omega)).2
      have right := (wellFormed.remove_of_crossing all (by unfold getStoredSize; omega)).2
      have offset : second - (buffer.mARegionSize - first) =
          first + second - buffer.mARegionSize := by omega
      have rest : buffer.mARegionSize - first + buffer.mBRegionSize - second =
          buffer.mARegionSize + buffer.mBRegionSize - (first + second) := by omega
      rw [left, right]
      simp only [getStoredSize, offset, rest]
    · unfold getStoredSize at everything
      rw [between.remove_of_ge (by simp only [getStoredSize]; omega),
        wellFormed.remove_of_ge (by unfold getStoredSize; omega)]

/-! ## Construction and reset -/

theorem construct (raw : ℕ → UInt8) {capacity : ℕ} (capacity_lt : capacity < 2 ^ 64) :
    (CircularBuffer.construct raw capacity).WellFormed :=
  ⟨rfl, capacity_lt, Nat.zero_le _, fun _ => ⟨rfl, rfl⟩, fun _ => rfl,
    fun _ allocated => by cases allocated⟩

theorem bufferReset (wellFormed : buffer.WellFormed) : buffer.bufferReset.WellFormed :=
  ⟨rfl, wellFormed.capacity_lt, Nat.zero_le _, fun _ => ⟨rfl, rfl⟩, fun _ => rfl,
    fun _ allocated => by cases allocated⟩

/-! ## Peeking -/

/-- Only region A can be peeked at. -/
theorem peek_eq_bytesA (wellFormed : buffer.WellFormed) : buffer.peek = buffer.bytesA := by
  rcases Nat.eq_zero_or_pos buffer.mARegionSize with empty | nonempty
  · rcases wellFormed.emptyA empty with ⟨_, closed⟩
    simp [peek, getBufferStart, bytesA, empty, closed]
  · simp [peek, getBufferStart, getContiguiousBytes, bytesA, nonempty]

/-- Only region A counts as contiguous. -/
theorem getContiguiousBytes_eq (wellFormed : buffer.WellFormed) :
    buffer.getContiguiousBytes = buffer.mARegionSize := by
  rcases Nat.eq_zero_or_pos buffer.mARegionSize with empty | nonempty
  · have closed := (wellFormed.emptyA empty).2
    simp [getContiguiousBytes, empty, wellFormed.withoutB closed]
  · simp [getContiguiousBytes, nonempty]

/-- With region A empty so is region B. -/
theorem bytesB_eq_nil_of_emptyA (wellFormed : buffer.WellFormed)
    (empty : buffer.mARegionSize = 0) : buffer.bytesB = [] := by
  simp [bytesB, (wellFormed.emptyA empty).2]

/-- Region A is empty only when nothing is stored. -/
theorem contents_eq_nil_iff (wellFormed : buffer.WellFormed) :
    buffer.contents = [] ↔ buffer.mARegionSize = 0 := by
  constructor
  · intro nothing
    have sizes := congrArg List.length nothing
    simp only [contents, List.length_append, length_bytesA, List.length_nil] at sizes
    omega
  · intro empty
    simp [contents, bytesA, empty, wellFormed.bytesB_eq_nil_of_emptyA empty]

end WellFormed

@[simp]
theorem contents_construct (raw : ℕ → UInt8) (capacity : ℕ) :
    (construct raw capacity).contents = [] := by
  simp [contents, bytesA, bytesB, construct]

@[simp]
theorem contents_bufferReset (buffer : CircularBuffer) : buffer.bufferReset.contents = [] := by
  simp [contents, bytesA, bytesB, bufferReset]

end Gsp.CircularBuffer
