import Gsp.ObjectPool.Partition

/-!
# Two generations of the pool

The third homework does not store null in the last slot of a new chunk, so that
its free list ends in whatever the raw chunk contained there. It returns what
the fourth homework returns until it follows that link.
-/

namespace Gsp

open ObjectPool

variable {type : ObjectType}

/-- The link behind the last slot of the latest chunk. -/
def tailLink (type : ObjectType) : List Chunk → ℕ
  | [] => 0
  | chunk :: _ => chunk.lastLink type

/-! ## The third homework -/

namespace Homework3

variable {pool : ObjectPool} {live rest : List ℕ} {slot last : ℕ} {chunk : Chunk}

theorem current_operatorNew : (operatorNew type chunk pool).2.mCurrentUseCount =
    Word.wrap32 (pool.mCurrentUseCount + 1) := by
  rw [operatorNew]
  split <;> rfl

/-- The link that the loop leaves in the last slot of a new chunk. -/
theorem load_lastSlot {chunks : List Chunk} (fresh : chunk.Fresh type chunks)
    (memory : ℕ → UInt8) :
    Pointer.load type.pointerSize (threadSlots type (type.allocCount - 1) chunk.base chunk.base
      (Region.write memory chunk.base chunk.raw)).1
      (chunk.base + (type.allocCount - 1) * type.sizeof) = chunk.lastLink type := by
  have count_eq : type.allocCount - 1 + 1 = type.allocCount :=
    Nat.sub_add_cancel type.allocCount_pos
  have inside : chunk.base + type.sizeof * (type.allocCount - 1 + 1) ≤ 256 ^ type.pointerSize := by
    rw [count_eq]
    exact fresh.inside
  have size_eq : type.chunkSize = (type.allocCount - 1) * type.sizeof + type.sizeof := by
    rw [ObjectType.chunkSize, ← Nat.add_one_mul, count_eq, Nat.mul_comm]
  have fits := type.pointerSize_le
  rcases threadSlots_spec (type.allocCount - 1) chunk.base
    (Region.write memory chunk.base chunk.raw) inside with ⟨_, _, untouched⟩
  have raw_eq := Region.read_write_self memory chunk.base chunk.raw
  rw [fresh.length_raw] at raw_eq
  rw [untouched _ (Or.inr le_rfl), Pointer.load, Chunk.lastLink]
  congr 1
  calc Region.read (Region.write memory chunk.base chunk.raw)
        (chunk.base + (type.allocCount - 1) * type.sizeof) type.pointerSize
      = (Region.read (Region.write memory chunk.base chunk.raw)
          (chunk.base + (type.allocCount - 1) * type.sizeof)
          (type.chunkSize - (type.allocCount - 1) * type.sizeof)).take type.pointerSize := by
        rw [Region.take_read]
        omega
    _ = (chunk.raw.drop ((type.allocCount - 1) * type.sizeof)).take type.pointerSize := by
        rw [← Region.drop_read _ _ _ _ (by omega), raw_eq]

theorem operatorNew_of_cons (chunk : Chunk) (sound : Sound type pool live (slot :: rest) last) :
    (operatorNew type chunk pool).1 = slot ∧
      (operatorNew type chunk pool).2.chunks = pool.chunks ∧
      Sound type (operatorNew type chunk pool).2 (slot :: live) rest last := by
  have some : pool.mFreeList ≠ 0 := by
    rw [sound.linked.1]
    exact (sound.free_inside List.mem_cons_self).1.ne'
  simp only [operatorNew, if_neg some]
  exact ⟨sound.takeFirst.1, rfl, sound.takeFirst.2⟩

/-- The list has ended in null, so that a new chunk is started. -/
theorem operatorNew_of_null (sound : Sound type pool live [] 0)
    (fresh : chunk.Fresh type pool.chunks) :
    (operatorNew type chunk pool).1 = chunk.base ∧
      (operatorNew type chunk pool).2.chunks = chunk :: pool.chunks ∧
      Sound type (operatorNew type chunk pool).2 (chunk.base :: live)
        (type.slots (chunk.base + type.sizeof) (type.allocCount - 1)) (chunk.lastLink type) := by
  have used : pool.mFreeList = 0 := sound.linked
  rcases linked_chunk fresh (Region.write pool.memory chunk.base chunk.raw) with ⟨_, link⟩
  have ends := load_lastSlot fresh pool.memory
  have link_lt : chunk.lastLink type < 256 ^ type.pointerSize := by
    rw [← ends]
    exact Pointer.load_lt ..
  have grown := sound.grow fresh (link _ _ (fun _ _ => rfl) ends) link_lt
  rw [Chunk.slots_eq] at grown
  simp only [operatorNew, if_pos used, newArray]
  exact ⟨grown.takeFirst.1, rfl, grown.takeFirst.2⟩

/-- The list has ended in another link, which is returned. -/
theorem operatorNew_of_link (chunk : Chunk) (sound : Sound type pool live [] last)
    (nonnull : last ≠ 0) :
    (operatorNew type chunk pool).1 = last ∧
      (operatorNew type chunk pool).2.chunks = pool.chunks := by
  have some : pool.mFreeList ≠ 0 := by
    rw [sound.linked]
    exact nonnull
  simp only [operatorNew, if_neg some]
  exact ⟨sound.linked, rfl⟩

end Homework3

/-! ## Both pools with the same user -/

/-- The pools of the third and of the fourth homework, each with its user. -/
structure TwoPools where
  old : PoolUser
  new : PoolUser

/-- Both users do the same with the objects they have got, and both pools would
get the same chunks. -/
def generations (type : ObjectType) : Machine TwoPools PoolAction where
  Initial two := ∃ oldMemory newMemory, two = ⟨.initial oldMemory, .initial newMemory⟩
  Step before action after :=
    (before.new.pool.mFreeList = 0 → action.Fresh type before.new.pool.chunks) ∧
      before.old.step type (Homework3.operatorNew type) action = some after.old ∧
      before.new.step type (Homework4.operatorNew type) action = some after.new

/-- How many results an action adds. -/
def PoolAction.returned : PoolAction → ℕ
  | .operatorNew _ => 1
  | _ => 0

namespace TwoPools

variable {two after : TwoPools} {free : List ℕ} {action : PoolAction}

/-- Every slot is in use, and the latest chunk did not contain null in the link
word of its last slot. -/
def FollowsRaw (type : ObjectType) (two : TwoPools) : PoolAction → Prop
  | .operatorNew _ => two.new.live.length = two.new.pool.chunks.length * type.allocCount ∧
      tailLink type two.new.pool.chunks ≠ 0
  | _ => False

/-- The pools agree, but for the end of the free list. -/
structure Alike (type : ObjectType) (two : TwoPools) (free : List ℕ) : Prop where
  old : Sound type two.old.pool two.old.live free (tailLink type two.old.pool.chunks)
  new : Sound type two.new.pool two.new.live free 0
  live : two.old.live = two.new.live
  chunks : two.old.pool.chunks = two.new.pool.chunks
  results : two.old.results = two.new.results

/-- The pools agree with some free list. -/
def Agree (type : ObjectType) (two : TwoPools) : Prop := ∃ free, Alike type two free

theorem alike_initial (oldMemory newMemory : ℕ → UInt8) :
    Alike type ⟨.initial oldMemory, .initial newMemory⟩ [] where
  old := .initial oldMemory
  new := .initial newMemory
  live := rfl
  chunks := rfl
  results := rfl

/-- The list is used up exactly when all slots are in use. -/
theorem Alike.used_iff (alike : Alike type two free) :
    two.new.live.length = two.new.pool.chunks.length * type.allocCount ↔ free = [] := by
  have counted := alike.new.perm.length_eq
  rw [length_allSlots, List.length_append] at counted
  rw [← List.length_eq_zero_iff]
  omega

theorem locate_lt {address number slot : ℕ} {chunks : List Chunk}
    (located : locate type address chunks = some (number, slot)) : number < chunks.length := by
  induction chunks with
  | nil => cases located
  | cons chunk earlier ih =>
      rw [locate] at located
      split at located
      · cases located
        exact Nat.lt_succ_self _
      · exact (ih located).trans (Nat.lt_succ_self _)

theorem locate_base (chunk : Chunk) (earlier : List Chunk) :
    locate type chunk.base (chunk :: earlier) = some (earlier.length, 0) := by
  have positive : 0 < type.chunkSize := Nat.mul_pos type.sizeof_pos type.allocCount_pos
  rw [locate, if_pos]
  · simp
  · simp [positive]

/-- Both users get the same object. -/
theorem Alike.gets (alike : Alike type two free) {obj : ℕ} {rest : List ℕ} {chunks : List Chunk}
    {oldPool newPool : ObjectPool} (oldChunks : oldPool.chunks = chunks)
    (newChunks : newPool.chunks = chunks)
    (old : Sound type oldPool (obj :: two.old.live) rest (tailLink type chunks))
    (new : Sound type newPool (obj :: two.new.live) rest 0) :
    Alike type
      ⟨⟨oldPool, obj :: two.old.live, two.old.results ++ [locate type obj oldPool.chunks]⟩,
        ⟨newPool, obj :: two.new.live, two.new.results ++ [locate type obj newPool.chunks]⟩⟩
      rest where
  old := by
    rw [oldChunks]
    exact old
  new := new
  live := by rw [alike.live]
  chunks := oldChunks.trans newChunks.symm
  results := by rw [alike.results, oldChunks, newChunks]

theorem alike_operatorNew (alike : Alike type two free) {chunk : Chunk}
    (fresh : two.new.pool.mFreeList = 0 → chunk.Fresh type two.new.pool.chunks)
    (old : two.old.step type (Homework3.operatorNew type) (.operatorNew chunk) = some after.old)
    (new : two.new.step type (Homework4.operatorNew type) (.operatorNew chunk) = some after.new)
    (stays : ¬two.FollowsRaw type (.operatorNew chunk)) : Agree type after := by
  rcases after with ⟨afterOld, afterNew⟩
  simp only [PoolUser.step, PoolUser.get, Option.some.injEq] at old new
  subst old
  subst new
  have soundOld := alike.old
  have soundNew := alike.new
  have sameChunks := alike.chunks
  cases free with
  | cons slot rest =>
      rcases Homework3.operatorNew_of_cons chunk soundOld with ⟨oldObj, oldChunks, oldAfter⟩
      rcases Homework4.operatorNew_of_cons chunk soundNew with ⟨newObj, newChunks, newAfter⟩
      rw [oldObj, newObj]
      exact ⟨rest, alike.gets oldChunks (newChunks.trans sameChunks.symm) oldAfter newAfter⟩
  | nil =>
      have null : tailLink type two.new.pool.chunks = 0 := by
        by_contra nonnull
        exact stays ⟨alike.used_iff.mpr rfl, nonnull⟩
      rw [sameChunks, null] at soundOld
      have freshNew := fresh soundNew.linked
      have freshOld := freshNew
      rw [← sameChunks] at freshOld
      rcases Homework3.operatorNew_of_null soundOld freshOld with ⟨oldObj, oldChunks, oldAfter⟩
      rcases Homework4.operatorNew_of_nil soundNew freshNew with ⟨newObj, newChunks, newAfter⟩
      rw [← sameChunks] at newChunks
      rw [oldObj, newObj]
      exact ⟨_, alike.gets oldChunks newChunks oldAfter newAfter⟩

/-- The old pool returns the raw link, and the new pool the first slot of a new chunk. -/
theorem results_ne_of_followsRaw (alike : Alike type two free) {chunk : Chunk}
    (fresh : two.new.pool.mFreeList = 0 → chunk.Fresh type two.new.pool.chunks)
    (old : two.old.step type (Homework3.operatorNew type) (.operatorNew chunk) = some after.old)
    (new : two.new.step type (Homework4.operatorNew type) (.operatorNew chunk) = some after.new)
    (follows : two.FollowsRaw type (.operatorNew chunk)) :
    after.old.results ≠ after.new.results := by
  rcases after with ⟨afterOld, afterNew⟩
  simp only [PoolUser.step, PoolUser.get, Option.some.injEq] at old new
  subst old
  subst new
  have empty := alike.used_iff.mp follows.1
  subst empty
  have nonnull := follows.2
  rw [← alike.chunks] at nonnull
  rcases Homework3.operatorNew_of_link chunk alike.old nonnull with ⟨oldObj, oldChunks⟩
  rcases Homework4.operatorNew_of_nil alike.new (fresh alike.new.linked) with
    ⟨newObj, newChunks, _⟩
  intro same
  simp only [oldObj, newObj, oldChunks, newChunks, locate_base, alike.results, alike.chunks] at same
  have located := List.append_cancel_left same
  simp only [List.cons.injEq, and_true] at located
  exact absurd (locate_lt located) (Nat.lt_irrefl _)

/-- Deleting and writing do not depend on how the list ends. -/
theorem alike_step (alike : Alike type two free)
    (step : (generations type).Step two action after)
    (stays : ¬two.FollowsRaw type action) : Agree type after := by
  rcases step with ⟨fresh, old, new⟩
  cases action with
  | operatorNew chunk => exact alike_operatorNew alike fresh old new stays
  | operatorDelete position =>
      rcases after with ⟨afterOld, afterNew⟩
      rcases PoolUser.step_operatorDelete_eq_some.mp old with
        ⟨obj, _, inUseOld, oldDeleted, rfl⟩
      rcases PoolUser.step_operatorDelete_eq_some.mp new with
        ⟨_, _, inUse, newDeleted, rfl⟩
      have oldAfter := alike.old.of_delete inUseOld oldDeleted
      have oldChunks := ObjectPool.chunks_operatorDelete oldDeleted
      have newChunks := ObjectPool.chunks_operatorDelete newDeleted
      rw [alike.live, inUse] at inUseOld
      cases inUseOld
      refine ⟨obj :: free, ?_, alike.new.of_delete inUse newDeleted, ?_, ?_, alike.results⟩
      · simp only [oldChunks]
        exact oldAfter
      · simp only [alike.live]
      · simp only [oldChunks, newChunks, alike.chunks]
  | write position offset bytes =>
      rcases after with ⟨afterOld, afterNew⟩
      rcases PoolUser.step_write_eq_some.mp old with ⟨_, inUseOld, fits, rfl⟩
      rcases PoolUser.step_write_eq_some.mp new with ⟨_, inUse, _, rfl⟩
      exact ⟨free, alike.old.write inUseOld fits, alike.new.write inUse fits, alike.live,
        alike.chunks, alike.results⟩

/-- What has been returned stays returned. -/
theorem results_step {user later : PoolUser} {operatorNew : OperatorNew}
    (step : user.step type operatorNew action = some later) :
    ∃ more, later.results = user.results ++ more ∧
      more.length = action.returned := by
  cases action with
  | operatorNew chunk =>
      cases step
      exact ⟨_, rfl, rfl⟩
  | operatorDelete position =>
      rcases PoolUser.step_operatorDelete_eq_some.mp step with ⟨_, _, _, _, rfl⟩
      exact ⟨[], (List.append_nil _).symm, rfl⟩
  | write position offset bytes =>
      rcases PoolUser.step_write_eq_some.mp step with ⟨_, _, _, rfl⟩
      exact ⟨[], (List.append_nil _).symm, rfl⟩

theorem results_eq_of_step (step : (generations type).Step two action after)
    (same : after.old.results = after.new.results) : two.old.results = two.new.results := by
  rcases results_step step.2.1 with ⟨oldMore, old_eq, oldLength⟩
  rcases results_step step.2.2 with ⟨newMore, new_eq, newLength⟩
  rw [old_eq, new_eq] at same
  exact (List.append_inj_left' same (oldLength.trans newLength.symm))

/-- The generations agree on a run exactly if no `operator new` of the run follows
a link that the raw chunk contained. -/
theorem same_results_iff {first last : TwoPools} {steps : List (TwoPools × PoolAction)}
    (initial : (generations type).Initial first) (run : (generations type).Run first steps last) :
    last.old.results = last.new.results ↔ ∀ step ∈ steps, ¬step.1.FollowsRaw type step.2 := by
  have start : Agree type first := by
    rcases initial with ⟨oldMemory, newMemory, rfl⟩
    exact ⟨[], alike_initial oldMemory newMemory⟩
  refine @Machine.Run.same_iff_fine _ _ (generations type) (Agree type)
    (fun two => two.old.results = two.new.results) (fun two action => ¬two.FollowsRaw type action)
    _ _ _ run initial start ?_ ?_ ?_ ?_
  · rintro two ⟨free, alike⟩
    exact alike.results
  · intro before action after step same
    exact results_eq_of_step step same
  · rintro before action after _ ⟨free, alike⟩ step stays
    exact alike_step alike step stays
  · rintro before action after _ ⟨free, alike⟩ step same follows
    cases action with
    | operatorNew chunk =>
        exact results_ne_of_followsRaw alike step.1 step.2.1 step.2.2 follows same
    | operatorDelete _ => exact follows
    | write _ _ _ => exact follows

/-- Objects in use are counted in the same way by both. -/
structure Counted (two : TwoPools) : Prop where
  live : two.old.live.length = two.new.live.length
  current : two.old.pool.mCurrentUseCount = two.new.pool.mCurrentUseCount

/-- A position that is in use in the new pool is in use in the old one. -/
theorem Counted.getElem?_old (counted : two.Counted) {position obj : ℕ}
    (inUse : two.new.live[position]? = some obj) :
    ∃ less : position < two.old.live.length,
      two.old.live[position]? = some two.old.live[position] := by
  rcases List.getElem?_eq_some_iff.mp inUse with ⟨less, _⟩
  have lessOld : position < two.old.live.length := by
    rw [counted.live]
    exact less
  exact ⟨lessOld, List.getElem?_eq_getElem lessOld⟩

theorem counted_step (counted : two.Counted) (step : (generations type).Step two action after) :
    after.Counted := by
  rcases after with ⟨afterOld, afterNew⟩
  rcases step with ⟨_, old, new⟩
  rcases counted with ⟨sameLength, current⟩
  cases action with
  | operatorNew chunk =>
      simp only [PoolUser.step, PoolUser.get, Option.some.injEq] at old new
      subst old
      subst new
      refine ⟨by simp [sameLength], ?_⟩
      rw [Homework3.current_operatorNew, Homework4.current_operatorNew, current]
  | operatorDelete position =>
      rcases PoolUser.step_operatorDelete_eq_some.mp old with ⟨obj, pool, inUse, deleted, rfl⟩
      rcases PoolUser.step_operatorDelete_eq_some.mp new with ⟨_, _, _, newDeleted, rfl⟩
      constructor
      · simp only [List.length_eraseIdx, sameLength]
      · simp only [current_operatorDelete deleted, current_operatorDelete newDeleted, current]
  | write position offset bytes =>
      rcases PoolUser.step_write_eq_some.mp old with ⟨_, _, _, rfl⟩
      rcases PoolUser.step_write_eq_some.mp new with ⟨_, _, _, rfl⟩
      exact ⟨sameLength, current⟩

/-- Where every word can be read, the user of the old pool can do whatever the user
of the new pool does, even when their results differ. -/
theorem exists_old_step (reachable : (generations type).Reachable two) {new : PoolUser}
    (step : two.new.step type (Homework4.operatorNew type) action = some new) :
    ∃ old, two.old.step type (Homework3.operatorNew type) action = some old := by
  have counted : two.Counted := by
    apply reachable.invariant
    · rintro first ⟨oldMemory, newMemory, rfl⟩
      exact ⟨rfl, rfl⟩
    · intro before action after _ counted step
      exact counted_step counted step
  cases action with
  | operatorNew chunk => exact ⟨_, rfl⟩
  | operatorDelete position =>
      rcases PoolUser.step_operatorDelete_eq_some.mp step with ⟨_, _, inUse, deleted, _⟩
      rcases counted.getElem?_old inUse with ⟨_, inUseOld⟩
      have used : 0 < two.old.pool.mCurrentUseCount := by
        rw [counted.current]
        exact pos_of_operatorDelete deleted
      exact ⟨_, PoolUser.step_operatorDelete_eq_some.mpr ⟨_, _, inUseOld, if_pos used, rfl⟩⟩
  | write position offset bytes =>
      rcases PoolUser.step_write_eq_some.mp step with ⟨_, inUse, fits, _⟩
      rcases counted.getElem?_old inUse with ⟨_, inUseOld⟩
      exact ⟨_, PoolUser.step_write_eq_some.mpr ⟨_, inUseOld, fits, rfl⟩⟩

/-! ## A chunk that is used up -/

/-- The bytes of its last slot are the address of its first one. -/
def firstChunk : Chunk := ⟨16, List.replicate 8 7 ++ 16 :: List.replicate 7 0⟩

/-- The chunk that comes after it. -/
def secondChunk : Chunk := ⟨48, List.replicate 16 7⟩

theorem firstChunk_fresh : firstChunk.Fresh pairType [] := by decide

theorem secondChunk_fresh : secondChunk.Fresh pairType [firstChunk] := by decide

/-- Both users get one more object. -/
def get (type : ObjectType) (chunk : Chunk) (two : TwoPools) : TwoPools :=
  ⟨two.old.get type (Homework3.operatorNew type) chunk,
    two.new.get type (Homework4.operatorNew type) chunk⟩

theorem step_get {chunk : Chunk} (fresh : chunk.Fresh type two.new.pool.chunks) :
    (generations type).Step two (.operatorNew chunk) (two.get type chunk) :=
  ⟨fun _ => fresh, rfl, rfl⟩

/-- Two pools that nothing was asked of. -/
def unusedPools : TwoPools := ⟨.initial fun _ => 0, .initial fun _ => 0⟩

/-- Both slots of the first chunk are in use. -/
def usedPools : TwoPools := (unusedPools.get pairType firstChunk).get pairType secondChunk

theorem exists_run_of_used : ∃ steps, (generations pairType).Run unusedPools steps usedPools ∧
    ∀ step ∈ steps, ¬step.1.FollowsRaw pairType step.2 := by
  have first : (generations pairType).Step unusedPools _ _ := step_get firstChunk_fresh
  have second : (generations pairType).Step (unusedPools.get pairType firstChunk) _ _ :=
    step_get secondChunk_fresh
  refine ⟨_, ((Machine.Run.nil _).snoc first).snoc second, ?_⟩
  simp only [List.nil_append, List.forall_mem_append, List.forall_mem_singleton]
  constructor
  · rintro ⟨_, nonnull⟩
    exact nonnull rfl
  · rintro ⟨used, _⟩
    contradiction

/-- The generations agree on the first chunk, whatever its last slot contained. -/
theorem same_results_iff_used :
    tailLink pairType usedPools.new.pool.chunks ≠ 0 ∧
      usedPools.old.results = usedPools.new.results := by
  rcases exists_run_of_used with ⟨steps, run, fine⟩
  exact ⟨by decide +kernel, (same_results_iff ⟨_, _, rfl⟩ run).mpr fine⟩

theorem not_always_same_results : ¬∀ (type : ObjectType) (two : TwoPools),
    (generations type).Reachable two → two.old.results = two.new.results := by
  intro always
  rcases exists_run_of_used with ⟨steps, run, _⟩
  have third : (generations pairType).Step usedPools _ _ := step_get secondChunk_fresh
  have same := always pairType (usedPools.get pairType secondChunk)
    ⟨_, _, ⟨_, _, rfl⟩, run.snoc third⟩
  revert same
  decide +kernel

end TwoPools

end Gsp
