import Mathlib.Data.Fintype.Card
import Gsp.Lib.Machine

/-!
# The reader-writer spin lock in exclusive mode

`EnterWriteLock` and `LeaveWriteLock` of `FastSpinlock.cpp`. A step is one access
of a thread to `mLockFlag`, or the test of what its `InterlockedAdd` returned.

The write field counts the threads that have added to it. A thread that finds
itself alone after adding owns the lock; all others take their addition back.
-/

namespace Gsp.Homework4

/-! ## The flag -/

/-- `LF_WRITE_MASK`. -/
def lfWriteMask : BitVec 32 := 0x7FF00000

/-- `LF_WRITE_FLAG`. -/
def lfWriteFlag : BitVec 32 := 0x00100000

/-- `LF_READ_MASK`. -/
def lfReadMask : BitVec 32 := 0x000FFFFF

/-- The flag when so many threads have added to the write field. -/
def flagOf (count : ℕ) : BitVec 32 := BitVec.ofNat 32 (count * 2 ^ 20)

/-- The eleven bits that `LF_WRITE_MASK` selects. -/
def writeField (mLockFlag : BitVec 32) : ℕ := ((mLockFlag &&& lfWriteMask) >>> 20).toNat

theorem toNat_flagOf {count : ℕ} (few : count < 2048) : (flagOf count).toNat = count * 2 ^ 20 := by
  rw [flagOf, BitVec.toNat_ofNat]
  apply Nat.mod_eq_of_lt
  omega

theorem flagOf_zero : flagOf 0 = 0 := rfl

theorem flagOf_add (count : ℕ) : flagOf count + lfWriteFlag = flagOf (count + 1) := by
  rw [flagOf, flagOf, Nat.add_mul, BitVec.ofNat_add]
  rfl

theorem flagOf_sub (count : ℕ) : flagOf (count + 1) - lfWriteFlag = flagOf count := by
  rw [← flagOf_add, BitVec.add_sub_cancel]

theorem flagOf_masked {count : ℕ} (few : count < 2048) :
    flagOf count &&& lfWriteMask = flagOf count := by
  apply BitVec.eq_of_toNat_eq
  have mask_eq : lfWriteMask.toNat = 2047 <<< 20 := by rfl
  have kept : count &&& 2047 = count := by
    rw [Nat.and_two_pow_sub_one_eq_mod count 11]
    exact Nat.mod_eq_of_lt few
  rw [BitVec.toNat_and, toNat_flagOf few, mask_eq, ← Nat.shiftLeft_eq, ← Nat.shiftLeft_and_distrib,
    kept]

/-- The flag reads as taken by one thread alone. -/
theorem masked_eq_flag_iff {count : ℕ} (few : count < 2048) :
    flagOf count &&& lfWriteMask = lfWriteFlag ↔ count = 1 := by
  rw [flagOf_masked few]
  constructor
  · intro same
    have values := congrArg BitVec.toNat same
    rw [toNat_flagOf few] at values
    change count * 2 ^ 20 = 2 ^ 20 at values
    omega
  · rintro rfl
    rfl

/-- The write field counts the threads that added to it. -/
theorem writeField_flagOf {count : ℕ} (few : count < 2048) : writeField (flagOf count) = count := by
  rw [writeField, flagOf_masked few, BitVec.toNat_ushiftRight, toNat_flagOf few,
    Nat.shiftRight_eq_div_pow]
  omega

theorem msb_flagOf {count : ℕ} (few : count < 2048) : (flagOf count).msb = false := by
  rw [BitVec.msb_eq_decide, toNat_flagOf few, decide_eq_false_iff_not]
  omega

/-! ## The threads -/

/-- Where a thread stands: at a read of a spin loop, before an addition, between
the addition and its test, or outside both functions. -/
inductive Position where
  | outside
  | spinning
  | adding
  | testing (sum : BitVec 32)
  | backingOff
  | awaitingReaders
  | inside

/-- The thread has added to the write field and not yet subtracted. -/
def Position.Added : Position → Prop
  | .testing _ | .backingOff | .awaitingReaders | .inside => True
  | .outside | .spinning | .adding => False

instance : DecidablePred Position.Added := fun position => by
  cases position <;> unfold Position.Added <;> infer_instance

/-- The thread is bound to get the lock, or has it. -/
def Position.Owns : Position → Prop
  | .testing sum => sum &&& lfWriteMask = lfWriteFlag
  | .awaitingReaders | .inside => True
  | .outside | .spinning | .adding | .backingOff => False

theorem Position.Owns.added {position : Position} (owns : position.Owns) : position.Added := by
  cases position <;> first | exact owns | exact trivial

/-- `EnterWriteLock`, from one access of the flag to the next. -/
def enterWriteLock (mLockFlag : BitVec 32) : Position → BitVec 32 × Position
  | .spinning =>
      if mLockFlag &&& lfWriteMask = 0 then (mLockFlag, .adding) else (mLockFlag, .spinning)
  | .adding => (mLockFlag + lfWriteFlag, .testing (mLockFlag + lfWriteFlag))
  | .testing sum =>
      if sum &&& lfWriteMask = lfWriteFlag then (mLockFlag, .awaitingReaders)
      else (mLockFlag, .backingOff)
  | .backingOff => (mLockFlag - lfWriteFlag, .spinning)
  | .awaitingReaders =>
      if mLockFlag &&& lfReadMask = 0 then (mLockFlag, .inside) else (mLockFlag, .awaitingReaders)
  | .outside => (mLockFlag, .spinning)
  | .inside => (mLockFlag, .inside)

/-- `LeaveWriteLock`. -/
def leaveWriteLock (mLockFlag : BitVec 32) : BitVec 32 × Position :=
  (mLockFlag - lfWriteFlag, .outside)

/-- The lock word, and where each thread stands. -/
structure FastSpinlock (threads : ℕ) where
  mLockFlag : BitVec 32
  position : Fin threads → Position

namespace FastSpinlock

variable {threads : ℕ} {lock : FastSpinlock threads} {thread : Fin threads}

/-- The lock when a thread has moved and the flag been written. -/
def move (thread : Fin threads) (mLockFlag : BitVec 32) (position : Position)
    (lock : FastSpinlock threads) : FastSpinlock threads :=
  ⟨mLockFlag, Function.update lock.position thread position⟩

/-- The next access of a thread, which uses the lock again and again. -/
def step (thread : Fin threads) (lock : FastSpinlock threads) : FastSpinlock threads :=
  let next :=
    match lock.position thread with
    | .inside => leaveWriteLock lock.mLockFlag
    | position => enterWriteLock lock.mLockFlag position
  lock.move thread next.1 next.2

/-- The constructor; no thread has come yet. -/
def construct (threads : ℕ) : FastSpinlock threads := ⟨0, fun _ => .outside⟩

/-- The threads that have added and not yet subtracted. -/
def added (lock : FastSpinlock threads) : Finset (Fin threads) :=
  Finset.univ.filter fun thread => (lock.position thread).Added

end FastSpinlock

/-- Any number of threads on one lock, in any order of their accesses. -/
def spinning (threads : ℕ) : Machine (FastSpinlock threads) (Fin threads) where
  Initial lock := lock = .construct threads
  Step before thread after := after = before.step thread

/-! ## Exclusion -/

namespace FastSpinlock

variable {threads : ℕ} {lock : FastSpinlock threads} {thread : Fin threads}

/-- The flag counts the additions, and at most one thread owns the lock. -/
structure Counted (lock : FastSpinlock threads) : Prop where
  flag : lock.mLockFlag = flagOf lock.added.card
  single : ∀ first second, (lock.position first).Owns → (lock.position second).Owns → first = second

@[simp]
theorem position_move_self (mLockFlag : BitVec 32) (position : Position) :
    (lock.move thread mLockFlag position).position thread = position :=
  Function.update_self ..

theorem position_move_of_ne {other : Fin threads} (ne : other ≠ thread) (mLockFlag : BitVec 32)
    (position : Position) :
    (lock.move thread mLockFlag position).position other = lock.position other :=
  Function.update_of_ne ne ..

theorem mem_added : thread ∈ lock.added ↔ (lock.position thread).Added := by
  simp [added]

theorem added_move_of_added (mLockFlag : BitVec 32) {position : Position}
    (adds : position.Added) :
    (lock.move thread mLockFlag position).added = insert thread lock.added := by
  ext other
  rw [mem_added, Finset.mem_insert]
  by_cases same : other = thread
  · subst same
    simp [adds]
  · rw [position_move_of_ne same, mem_added]
    simp [same]

theorem added_move_of_not_added (mLockFlag : BitVec 32) {position : Position}
    (notAdded : ¬position.Added) :
    (lock.move thread mLockFlag position).added = lock.added.erase thread := by
  ext other
  rw [mem_added, Finset.mem_erase]
  by_cases same : other = thread
  · subst same
    simp [notAdded]
  · rw [position_move_of_ne same, mem_added]
    simp [same]

/-- Fewer threads have added than the field can count. -/
theorem card_added_lt (few : threads < 2048) (lock : FastSpinlock threads) :
    lock.added.card < 2048 := by
  have bound := Finset.card_le_univ lock.added
  rw [Fintype.card_fin] at bound
  omega

/-- A move of a thread that does not come to own the lock. -/
theorem single_move (counted : lock.Counted) (mLockFlag : BitVec 32) {position : Position}
    (earlier : position.Owns → (lock.position thread).Owns) (first second : Fin threads)
    (firstOwns : ((lock.move thread mLockFlag position).position first).Owns)
    (secondOwns : ((lock.move thread mLockFlag position).position second).Owns) :
    first = second := by
  have owned {other : Fin threads}
      (owns : ((lock.move thread mLockFlag position).position other).Owns) :
      (lock.position other).Owns := by
    by_cases same : other = thread
    · subst same
      rw [position_move_self] at owns
      exact earlier owns
    · rw [position_move_of_ne same] at owns
      exact owns
  exact counted.single first second (owned firstOwns) (owned secondOwns)

/-- A move between two accesses that leaves the flag alone. -/
theorem counted_move (counted : lock.Counted) {position : Position}
    (same : position.Added ↔ (lock.position thread).Added)
    (earlier : position.Owns → (lock.position thread).Owns) :
    (lock.move thread lock.mLockFlag position).Counted where
  flag := by
    by_cases adds : position.Added
    · rw [added_move_of_added _ adds, Finset.insert_eq_of_mem (mem_added.mpr (same.mp adds))]
      exact counted.flag
    · have notMem : thread ∉ lock.added := by
        rw [mem_added, ← same]
        exact adds
      rw [added_move_of_not_added _ adds, Finset.erase_eq_of_notMem notMem]
      exact counted.flag
  single := single_move counted _ earlier

/-- Whoever finds itself alone after adding is the only one to own the lock. -/
theorem counted_add (few : threads < 2048) (counted : lock.Counted)
    (idle : ¬(lock.position thread).Added) :
    (lock.move thread (lock.mLockFlag + lfWriteFlag)
      (.testing (lock.mLockFlag + lfWriteFlag))).Counted := by
  have sum_eq : lock.mLockFlag + lfWriteFlag = flagOf (lock.added.card + 1) := by
    rw [counted.flag, flagOf_add]
  have notMem : thread ∉ lock.added := by
    rw [mem_added]
    exact idle
  have added_eq : (lock.move thread (lock.mLockFlag + lfWriteFlag)
      (.testing (lock.mLockFlag + lfWriteFlag))).added.card = lock.added.card + 1 := by
    rw [added_move_of_added _ (by exact trivial), Finset.card_insert_of_notMem notMem]
  have bound : lock.added.card + 1 < 2048 := by
    rw [← added_eq]
    exact card_added_lt few _
  have alone {other : Fin threads} (owns : (lock.position other).Owns) :
      ¬(lock.mLockFlag + lfWriteFlag) &&& lfWriteMask = lfWriteFlag := by
    rw [sum_eq, masked_eq_flag_iff bound]
    have some := Finset.card_pos.mpr ⟨other, mem_added.mpr owns.added⟩
    omega
  constructor
  · rw [added_eq]
    exact sum_eq
  · intro first second firstOwns secondOwns
    by_cases isFirst : first = thread <;> by_cases isSecond : second = thread
    · exact isFirst.trans isSecond.symm
    · subst isFirst
      rw [position_move_self] at firstOwns
      rw [position_move_of_ne isSecond] at secondOwns
      exact absurd firstOwns (alone secondOwns)
    · subst isSecond
      rw [position_move_self] at secondOwns
      rw [position_move_of_ne isFirst] at firstOwns
      exact absurd secondOwns (alone firstOwns)
    · rw [position_move_of_ne isFirst] at firstOwns
      rw [position_move_of_ne isSecond] at secondOwns
      exact counted.single first second firstOwns secondOwns

/-- Backing off and leaving. -/
theorem counted_sub (counted : lock.Counted) (adds : (lock.position thread).Added)
    {position : Position} (notAdded : ¬position.Added) :
    (lock.move thread (lock.mLockFlag - lfWriteFlag) position).Counted where
  flag := by
    have isMem := mem_added.mpr adds
    have card_eq := Finset.card_erase_add_one isMem
    rw [added_move_of_not_added _ notAdded, ← flagOf_sub, card_eq, ← counted.flag]
    rfl
  single := by
    apply single_move counted
    intro owns
    exact absurd owns.added notAdded

/-- A new lock is counted. -/
theorem counted_construct (threads : ℕ) : (construct threads).Counted where
  flag := by
    have none : (construct threads).added = ∅ := Finset.filter_false_of_mem fun _ _ adds => adds
    rw [none, Finset.card_empty, flagOf_zero]
    rfl
  single := fun _ _ owns => owns.elim

/-- Every step keeps the lock counted. -/
theorem counted_step (few : threads < 2048) (counted : lock.Counted) (thread : Fin threads) :
    (lock.step thread).Counted := by
  cases at_eq : lock.position thread with
  | outside =>
      simp only [step, at_eq, enterWriteLock]
      apply counted_move counted <;> rw [at_eq]
      · exact Iff.rfl
      · exact id
  | spinning =>
      simp only [step, at_eq, enterWriteLock]
      split
      · apply counted_move counted <;> rw [at_eq]
        · exact Iff.rfl
        · exact id
      · apply counted_move counted <;> rw [at_eq]
        exact id
  | adding =>
      simp only [step, at_eq, enterWriteLock]
      apply counted_add few counted
      rw [at_eq]
      exact id
  | testing sum =>
      simp only [step, at_eq, enterWriteLock]
      split
      · next alone =>
          apply counted_move counted <;> rw [at_eq]
          · exact Iff.rfl
          · intro _
            exact alone
      · apply counted_move counted <;> rw [at_eq]
        · exact Iff.rfl
        · exact False.elim
  | backingOff =>
      simp only [step, at_eq, enterWriteLock]
      apply counted_sub counted
      · rw [at_eq]
        exact trivial
      · exact id
  | awaitingReaders =>
      simp only [step, at_eq, enterWriteLock]
      split
      · apply counted_move counted <;> rw [at_eq]
        · exact Iff.rfl
        · exact id
      · apply counted_move counted <;> rw [at_eq]
        exact id
  | inside =>
      simp only [step, at_eq, leaveWriteLock]
      apply counted_sub counted
      · rw [at_eq]
        exact trivial
      · exact id

/-- Every reachable lock is counted. -/
theorem counts_of_reachable (few : threads < 2048) (reachable : (spinning threads).Reachable lock) :
    lock.Counted := by
  apply reachable.invariant
  · rintro first rfl
    exact counted_construct threads
  · rintro before thread after _ counted rfl
    exact counted_step few counted thread

/-- The lock excludes: one thread inside at most, and a flag that counts the
threads which have added, so that it is 0 when there is none. -/
theorem exclusive_of_reachable (few : threads < 2048)
    (reachable : (spinning threads).Reachable lock) :
    (∀ first second, lock.position first = .inside → lock.position second = .inside →
      first = second) ∧
    writeField lock.mLockFlag = lock.added.card ∧ lock.mLockFlag.msb = false ∧
    ((∀ thread, ¬(lock.position thread).Added) → lock.mLockFlag = 0) := by
  have counted := counts_of_reachable few reachable
  have bound := card_added_lt few lock
  refine ⟨?_, ?_, ?_, ?_⟩
  · intro first second firstInside secondInside
    apply counted.single
    · rw [firstInside]
      exact trivial
    · rw [secondInside]
      exact trivial
  · rw [counted.flag, writeField_flagOf bound]
  · rw [counted.flag, msb_flagOf bound]
  · intro none
    have empty : lock.added = ∅ := by
      ext thread
      simp [mem_added, none thread]
    rw [counted.flag, empty, Finset.card_empty, flagOf_zero]

/-- The first of two threads has entered, the second is at its test. -/
theorem exclusive_of_reachable_contended :
    ∃ lock : FastSpinlock 2, lock.position 0 = .inside ∧ lock.position 1 ≠ .inside ∧
      writeField lock.mLockFlag = 2 ∧ writeField lock.mLockFlag = lock.added.card := by
  have moved {lock : FastSpinlock 2} (reachable : (spinning 2).Reachable lock) (thread : Fin 2) :
      (spinning 2).Reachable (lock.step thread) := reachable.step rfl
  have start : (spinning 2).Reachable (.construct 2) := .ofInitial rfl
  -- The second thread has read the flag before the first one adds.
  have raced := moved (moved (moved (moved start 0) 0) 1) 1
  have entered := moved (moved (moved (moved raced 0) 0) 0) 1
  refine ⟨_, rfl, ?_, rfl, (exclusive_of_reachable (by decide) entered).2.1⟩
  intro inside
  cases inside

end FastSpinlock

end Gsp.Homework4
