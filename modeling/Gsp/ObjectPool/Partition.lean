import Gsp.ObjectPool.FreeList

/-!
# Free slots and objects in use

In every run the slots of the chunks are divided into the free list and the
objects in use, whatever the raw chunks contained and whatever is stored in the
objects. The counters of the class are right about it as long as the slots can be
counted by an `int`.
-/

namespace Gsp

open ObjectPool

variable {type : ObjectType} {user : PoolUser} {free : List ℕ}

/-- The free list of the pool: finite, without repetition, and the complement of
the objects in use among the slots of the chunks. -/
structure Divided (type : ObjectType) (user : PoolUser) (free : List ℕ) : Prop where
  linked : Linked type.pointerSize user.pool.memory user.pool.mFreeList free 0
  nonnull : 0 ∉ free
  nodup : (free ++ user.live).Nodup
  separate : (free ++ user.live).Pairwise type.Apart
  covers : ∀ address, address ∈ free ++ user.live ↔ ∃ chunk ∈ user.pool.chunks,
    ∃ index < type.allocCount, address = chunk.base + index * type.sizeof

/-- The counters of the class count the slots and the objects in use. -/
structure Partitioned (type : ObjectType) (user : PoolUser) (free : List ℕ) : Prop
    extends Divided type user free where
  counted : user.pool.mTotalAllocCount = user.pool.mCurrentUseCount + free.length

/-- Each slot is free or in use, so that `operator new` returns a slot that is not
in use, and `operator delete` of an object in use passes its assertion. -/
structure Consistent (type : ObjectType) (user : PoolUser) : Prop where
  partitioned : ∃ free, Partitioned type user free
  returnsFree : ∀ chunk, (user.pool.mFreeList = 0 → chunk.Fresh type user.pool.chunks) →
    (Homework4.operatorNew type chunk user.pool).1 ∉ user.live ∧
      ∃ origin ∈ (Homework4.operatorNew type chunk user.pool).2.chunks,
        ∃ index < type.allocCount, (Homework4.operatorNew type chunk user.pool).1 =
          origin.base + index * type.sizeof
  deletes : ∀ obj ∈ user.live, (user.pool.operatorDelete type obj).isSome

/-- How many slots there are. -/
def slotCount (type : ObjectType) (pool : ObjectPool) : ℕ := pool.chunks.length * type.allocCount

/-- `operator new` finds no free slot. -/
def StartsChunk (user : PoolUser) : PoolAction → Prop
  | .operatorNew _ => user.pool.mFreeList = 0
  | _ => False

/-- If a chunk is started, an `int` can count the slots with this chunk. -/
def SlotsFit (type : ObjectType) (user : PoolUser) (action : PoolAction) : Prop :=
  StartsChunk user action → slotCount type user.pool + type.allocCount < 2 ^ 31

/-! ## The slots -/

theorem sound_step {action : PoolAction} {after : PoolUser}
    (sound : Sound type user.pool user.live free 0)
    (step : (pooling type).Step user action after) :
    ∃ rest, Sound type after.pool after.live rest 0 := by
  rcases step with ⟨fresh, step⟩
  cases action with
  | operatorNew chunk =>
      cases step
      exact Homework4.operatorNew_sound sound fresh
  | operatorDelete position =>
      rcases PoolUser.step_operatorDelete_eq_some.mp step with ⟨obj, pool, inUse, deleted, rfl⟩
      exact ⟨_, sound.of_delete inUse deleted⟩
  | write position offset bytes =>
      rcases PoolUser.step_write_eq_some.mp step with ⟨obj, inUse, fits, rfl⟩
      exact ⟨free, sound.write inUse fits⟩

theorem Divided.of_sound (sound : Sound type user.pool user.live free 0) :
    Divided type user free where
  linked := sound.linked
  nonnull isMem := (sound.free_inside isMem).1.ne' rfl
  nodup := by
    apply sound.pairwise.imp
    intro first second apart same
    have positive := type.sizeof_pos
    simp only [ObjectType.Apart] at apart
    omega
  separate := sound.pairwise
  covers address := sound.perm.mem_iff.trans mem_allSlots

theorem sound_of_reachable (reachable : (pooling type).Reachable user) :
    ∃ free, Sound type user.pool user.live free 0 := by
  apply reachable.invariant
  · rintro first ⟨memory, rfl⟩
    exact ⟨[], Sound.initial memory⟩
  · rintro before action after _ ⟨free, sound⟩ step
    exact sound_step sound step

/-- The slots are divided in every reachable state, whatever the counters have
come to. -/
theorem divided_of_reachable (reachable : (pooling type).Reachable user) :
    ∃ free, Divided type user free := by
  rcases sound_of_reachable reachable with ⟨free, sound⟩
  exact ⟨free, .of_sound sound⟩

theorem Sound.length_eq (sound : Sound type user.pool user.live free 0) :
    free.length + user.live.length = slotCount type user.pool := by
  rw [slotCount, ← length_allSlots, ← sound.perm.length_eq, List.length_append]

/-- There is only one free list. -/
theorem Divided.length_eq {others : List ℕ} (divided : Divided type user others)
    (sound : Sound type user.pool user.live free 0) : others.length = free.length := by
  have same : (others ++ user.live).Perm (free ++ user.live) := by
    rw [List.perm_ext_iff_of_nodup divided.nodup (Divided.of_sound sound).nodup]
    intro address
    rw [divided.covers, (Divided.of_sound sound).covers]
  exact ((List.perm_append_right_iff user.live).mp same).length_eq

/-! ## The counters -/

theorem Consistent.of_sound (sound : Sound type user.pool user.live free 0)
    (few : slotCount type user.pool < 2 ^ 31) : Consistent type user := by
  have length_eq := Sound.length_eq sound
  have total : user.pool.mTotalAllocCount = slotCount type user.pool := by
    rw [sound.total, length_allSlots]
    exact Word.wrap32_eq (by omega) (by rw [← slotCount]; omega)
  have current : user.pool.mCurrentUseCount = user.live.length := by
    rw [sound.current]
    exact Word.wrap32_eq (by omega) (by omega)
  refine ⟨⟨free, .of_sound sound, by omega⟩, ?_, ?_⟩
  · intro chunk fresh
    rcases Homework4.operatorNew_sound sound fresh with ⟨rest, after⟩
    have all : Divided type ⟨_, _ :: user.live, []⟩ rest := .of_sound after
    constructor
    · exact (List.nodup_cons.mp (List.nodup_append.mp all.nodup).2.1).1
    · exact (all.covers _).mp (List.mem_append_right _ List.mem_cons_self)
  · intro obj objMem
    have some := List.length_pos_of_mem objMem
    rcases List.getElem?_of_mem objMem with ⟨position, inUse⟩
    rcases sound.delete inUse (by omega) with ⟨after, deleted, _⟩
    rw [deleted]
    rfl

/-- A step adds slots when it starts a chunk, which happens when all others are in use. -/
theorem slotCount_step {action : PoolAction} {after : PoolUser}
    (sound : Sound type user.pool user.live free 0)
    (step : (pooling type).Step user action after) :
    (StartsChunk user action ∧
        slotCount type after.pool = slotCount type user.pool + type.allocCount ∧
        after.live.length = slotCount type user.pool + 1) ∨
      ¬StartsChunk user action ∧ slotCount type after.pool = slotCount type user.pool := by
  rcases step with ⟨fresh, step⟩
  cases action with
  | operatorNew chunk =>
      cases step
      cases free with
      | nil =>
          have length_eq := Sound.length_eq sound
          rcases Homework4.operatorNew_of_nil sound (fresh sound.linked) with ⟨_, chunks_eq, _⟩
          refine Or.inl ⟨sound.linked, ?_, ?_⟩
          · simp only [slotCount, PoolUser.get, chunks_eq, List.length_cons, Nat.add_one_mul]
          · simp only [PoolUser.get, List.length_cons, ← length_eq, List.length_nil, Nat.zero_add]
      | cons slot rest =>
          have chunks_eq := (Homework4.operatorNew_of_cons chunk sound).2.1
          refine Or.inr ⟨?_, ?_⟩
          · intro used
            cases sound.head_eq_zero_iff.mp used
          · simp only [slotCount, PoolUser.get, chunks_eq]
  | operatorDelete position =>
      rcases PoolUser.step_operatorDelete_eq_some.mp step with ⟨obj, pool, inUse, deleted, rfl⟩
      refine Or.inr ⟨id, ?_⟩
      simp only [slotCount, ObjectPool.chunks_operatorDelete deleted]
  | write position offset bytes =>
      rcases PoolUser.step_write_eq_some.mp step with ⟨obj, inUse, fits, rfl⟩
      exact Or.inr ⟨id, rfl⟩

/-- The first chunk with which the slots cannot be counted shows at once: in the
total, or in the assertion if the objects in use cannot be counted either. -/
theorem slotsFit_of_consistent {action : PoolAction} {after : PoolUser}
    (sound : Sound type user.pool user.live free 0) (few : slotCount type user.pool < 2 ^ 31)
    (step : (pooling type).Step user action after) (consistent : Consistent type after) :
    SlotsFit type user action := by
  intro starts
  rcases slotCount_step sound step with ⟨_, grown, used⟩ | ⟨stays, _⟩
  · rcases sound_step sound step with ⟨rest, soundAfter⟩
    rcases consistent.partitioned with ⟨others, partitioned⟩
    have length_eq := Sound.length_eq soundAfter
    have counted := partitioned.counted
    rw [partitioned.toDivided.length_eq soundAfter, soundAfter.total, soundAfter.current,
      length_allSlots, ← slotCount] at counted
    have total_lt := (Word.wrap32_mem (slotCount type after.pool)).2
    -- the object that has just been returned can be deleted
    have current : Word.wrap32 after.live.length = after.live.length := by
      rcases @List.exists_mem_of_length_pos _ after.live (by omega) with ⟨obj, objMem⟩
      have deletes := consistent.deletes obj objMem
      by_cases small : after.live.length < 2 ^ 31
      · exact Word.wrap32_eq (by omega) (by omega)
      · have last : after.live.length = 2 ^ 31 := by omega
        rw [operatorDelete, soundAfter.current, last] at deletes
        simp [Word.wrap32] at deletes
    omega
  · exact absurd starts stays

/-- Two objects of eight bytes in a chunk. -/
def pairType : ObjectType where
  sizeof := 8
  allocCount := 2
  pointerSize := 8
  pointerSize_le := by decide
  pointerSize_pos := by decide
  allocCount_pos := by decide

instance (chunk : Chunk) (chunks : List Chunk) : Decidable (chunk.Fresh type chunks) :=
  decidable_of_iff (chunk.raw.length = type.chunkSize ∧ 0 < chunk.base ∧
      chunk.base + type.chunkSize ≤ 256 ^ type.pointerSize ∧
      ∀ earlier ∈ chunks, chunk.base + type.chunkSize ≤ earlier.base ∨
        earlier.base + type.chunkSize ≤ chunk.base)
    ⟨fun ⟨length_raw, base_pos, inside, apart⟩ => ⟨length_raw, base_pos, inside, apart⟩,
      fun fresh => ⟨fresh.length_raw, fresh.base_pos, fresh.inside, fresh.apart⟩⟩

instance (action : PoolAction) (chunks : List Chunk) : Decidable (action.Fresh type chunks) :=
  match action with
  | .operatorNew chunk => inferInstanceAs (Decidable (chunk.Fresh type chunks))
  | .operatorDelete _ | .write _ _ _ => isTrue trivial

instance (action : PoolAction) : Decidable (StartsChunk user action) :=
  match action with
  | .operatorNew _ => inferInstanceAs (Decidable (_ = _))
  | .operatorDelete _ | .write _ _ _ => isFalse id

instance (action : PoolAction) : Decidable (SlotsFit type user action) :=
  inferInstanceAs (Decidable (_ → _))

/-- A step whose chunk is fresh if it is needed, and started in time. -/
def fittingStep (type : ObjectType) (user : PoolUser) (action : PoolAction) :
    Except Unit PoolUser :=
  if (user.pool.mFreeList = 0 → action.Fresh type user.pool.chunks) ∧
      SlotsFit type user action then
    (user.step type (Homework4.operatorNew type) action).elim (.error ()) .ok
  else .error ()

theorem step_of_fittingStep {action : PoolAction} {after : PoolUser}
    (made : fittingStep type user action = .ok after) :
    (pooling type).Step user action after ∧ SlotsFit type user action := by
  rw [fittingStep] at made
  split at made
  · next fine =>
      cases taken : user.step type (Homework4.operatorNew type) action with
      | none => simp [taken] at made
      | some next =>
          simp only [taken, Option.elim_some, Except.ok.injEq] at made
          subst made
          exact ⟨⟨fine.1, taken⟩, fine.2⟩
  · cases made

/-- The first chunk is used up, its objects are written to, one is deleted and its
slot used again, before a second chunk is started and the first object deleted. -/
def twoChunks : List PoolAction :=
  [.operatorNew ⟨16, List.replicate 16 7⟩, .operatorNew ⟨0, []⟩,
    .write 0 0 (List.replicate 8 1), .write 1 0 (List.replicate 8 2), .operatorDelete 1,
    .operatorNew ⟨0, []⟩, .operatorNew ⟨48, List.replicate 16 7⟩, .operatorDelete 2]

/-- The chunk behind as many others, from the second of the address space on. -/
def Chunk.behind (type : ObjectType) (others : ℕ) : Chunk :=
  ⟨(others + 1) * type.chunkSize, List.replicate type.chunkSize 0⟩

/-- All objects so far are in use, and each chunk is behind the one before. -/
structure Filled (type : ObjectType) (user : PoolUser) : Prop where
  reachable : (pooling type).Reachable user
  few : slotCount type user.pool < user.live.length + type.allocCount
  inside : ∀ chunk ∈ user.pool.chunks,
    chunk.base + type.chunkSize ≤ (user.pool.chunks.length + 1) * type.chunkSize

theorem Filled.fresh (filled : Filled type user)
    (fits : user.live.length * type.sizeof + 2 * type.chunkSize ≤ 256 ^ type.pointerSize)
    (used : user.pool.mFreeList = 0) :
    (Chunk.behind type user.pool.chunks.length).Fresh type user.pool.chunks := by
  rcases sound_of_reachable filled.reachable with ⟨free, sound⟩
  have none := sound.head_eq_zero_iff.mp used
  subst none
  have slots : user.live.length = user.pool.chunks.length * type.allocCount := by
    have length_eq := Sound.length_eq sound
    rwa [List.length_nil, Nat.zero_add, slotCount] at length_eq
  have positive : 0 < type.chunkSize := Nat.mul_pos type.sizeof_pos type.allocCount_pos
  refine ⟨by simp [Chunk.behind], Nat.mul_pos (Nat.succ_pos _) positive, ?_, ?_⟩
  · calc (user.pool.chunks.length + 1) * type.chunkSize + type.chunkSize
        = user.pool.chunks.length * type.chunkSize + 2 * type.chunkSize := by
          rw [Nat.add_one_mul]
          omega
      _ = user.live.length * type.sizeof + 2 * type.chunkSize := by
          rw [slots, ObjectType.chunkSize, Nat.mul_comm type.sizeof, Nat.mul_assoc]
      _ ≤ 256 ^ type.pointerSize := fits
  · intro earlier earlierMem
    exact Or.inr (filled.inside earlier earlierMem)

/-- One more object, if need be of one more chunk. -/
theorem Filled.get (filled : Filled type user)
    (fits : user.live.length * type.sizeof + 2 * type.chunkSize ≤ 256 ^ type.pointerSize) :
    ∃ after, Filled type after ∧ after.live.length = user.live.length + 1 := by
  have step : (pooling type).Step user (.operatorNew (.behind type user.pool.chunks.length))
      (user.get type (Homework4.operatorNew type) (.behind type user.pool.chunks.length)) :=
    ⟨filled.fresh fits, rfl⟩
  rcases sound_of_reachable filled.reachable with ⟨free, sound⟩
  refine ⟨_, ⟨filled.reachable.step step, ?_, ?_⟩, rfl⟩
  · have few := filled.few
    have positive := type.allocCount_pos
    simp only [PoolUser.get, List.length_cons]
    rcases slotCount_step sound step with ⟨_, grown, used⟩ | ⟨_, same⟩
    · simp only [PoolUser.get, List.length_cons] at grown used
      omega
    · simp only [PoolUser.get] at same
      omega
  · cases free with
    | nil =>
        have chunks_eq := (Homework4.operatorNew_of_nil sound (filled.fresh fits sound.linked)).2.1
        simp only [PoolUser.get, chunks_eq, List.length_cons, List.forall_mem_cons]
        refine ⟨?_, ?_⟩
        · exact (Nat.add_one_mul ..).ge
        · intro earlier earlierMem
          exact (filled.inside earlier earlierMem).trans
            (Nat.mul_le_mul_right _ (Nat.le_succ _))
    | cons slot rest =>
        have chunks_eq := (Homework4.operatorNew_of_cons
          (.behind type user.pool.chunks.length) sound).2.1
        simp only [PoolUser.get, chunks_eq]
        exact filled.inside

theorem exists_filled (count : ℕ)
    (fits : count * type.sizeof + 2 * type.chunkSize ≤ 256 ^ type.pointerSize) :
    ∃ user, Filled type user ∧ user.live.length = count := by
  induction count with
  | zero =>
      refine ⟨.initial fun _ => 0, ⟨.ofInitial ⟨_, rfl⟩, ?_, ?_⟩, rfl⟩
      · have positive := type.allocCount_pos
        simp only [slotCount, PoolUser.initial, ObjectPool.initial, List.length_nil]
        omega
      · simp [PoolUser.initial, ObjectPool.initial]
  | succ count ih =>
      have smaller := Nat.add_mul count 1 type.sizeof
      rcases ih (by omega) with ⟨user, filled, length_eq⟩
      rcases filled.get (by rw [length_eq]; omega) with ⟨after, filledAfter, moreLength⟩
      exact ⟨after, filledAfter, by rw [moreLength, length_eq]⟩

/-- Objects of eight bytes, 2^30 of them in a chunk. -/
def wideType : ObjectType where
  sizeof := 8
  allocCount := 2 ^ 30
  pointerSize := 8
  pointerSize_le := by decide
  pointerSize_pos := by decide
  allocCount_pos := by decide

end Gsp
