import Gsp.Homework4.MemoryBlocks

/-!
# Reuse of memory blocks

What `Allocate` and `Deallocate` do to the blocks, the headers and the counters,
and what holds of every sequence of them: no two blocks in use share a byte, no
assertion fails, and a block given back twice is stopped.
-/

namespace Gsp.Homework4

variable {platform : Platform} {memory after : MemoryPool} {live : List Allocation}
  {allocation : Allocation} {fresh header : ℕ} {size extraInfo : ℤ}

/-- Every pool counts its blocks in use. -/
def Counted (memory : MemoryPool) (live : List Allocation) : Prop :=
  ∀ index, (memory.pools index).mAllocCount = tally Allocation.origin live (some index)

/-! ## Allocation -/

/-- Blocks have left the list of a pool. -/
theorem Placed.shrink (placed : Placed platform memory live) {index : ℕ}
    {pool : SmallSizeMemoryPool} (size_eq : pool.mAllocSize = (memory.pools index).mAllocSize)
    (shrunk : pool.mFreeList.Sublist (memory.pools index).mFreeList) :
    Placed platform (memory.setPool index pool) live := by
  apply placed.setPool size_eq
  · intro header headerMem
    rw [size_eq]
    exact placed.listed index header (shrunk.subset headerMem)
  · exact (placed.lists_nodup index).sublist shrunk
  · intro header headerMem other ne alsoMem
    exact ne (placed.lists_apart other index header alsoMem (shrunk.subset headerMem))
  · intro header headerMem
    exact placed.taken index header (shrunk.subset headerMem)

/-- Where the block for a size comes from, and what has happened to the pools. -/
inductive Popped (platform : Platform) (memory : MemoryPool) (fresh : ℕ) (size : ℤ) :
    ℕ → MemoryPool → Prop where
  | large (direct : memory.origin platform size = none) :
      Popped platform memory fresh size fresh
        (memory.alignedMalloc fresh (memory.blockLength platform size))
  | grown {index : ℕ} (found : memory.origin platform size = some index)
      (nothing : (memory.pools index).mFreeList = []) :
      Popped platform memory fresh size fresh
        ((memory.alignedMalloc fresh (memory.blockLength platform size)).setPool index
          { memory.pools index with mAllocCount := (memory.pools index).mAllocCount + 1 })
  | reused {index header : ℕ} {rest : List ℕ}
      (found : memory.origin platform size = some index)
      (top : (memory.pools index).mFreeList = header :: rest) :
      Popped platform memory fresh size header
        (memory.setPool index
          { memory.pools index with
            mFreeList := rest
            mAllocCount := (memory.pools index).mAllocCount + 1 })

namespace MemoryPool

@[simp]
theorem detachMemAllocInfo_add (header : ℕ) :
    detachMemAllocInfo platform (header + platform.sizeofMemAllocInfo) = header :=
  Nat.add_sub_cancel ..

/-- `Allocate` passes its assertions if the whole block has a positive size. -/
theorem exists_allocate (placed : Placed platform memory live)
    (labelled : Labelled platform memory live)
    (positive : 0 < size + platform.sizeofMemAllocInfo) {asked : ℤ}
    (real : realAllocSize platform asked = size + platform.sizeofMemAllocInfo) :
    ∃ header popped, Popped platform memory fresh size header popped ∧
      memory.allocate platform fresh asked =
        .ok (popped.attachMemAllocInfo platform header (size + platform.sizeofMemAllocInfo)) := by
  simp only [allocate, real]
  rcases @origin_cases platform memory placed.covering size positive with
    ⟨small, index, found, _⟩ | ⟨large, direct⟩
  · rw [if_neg (by omega), lookup_eq positive found]
    have length_eq : memory.blockLength platform size = (memory.pools index).mAllocSize := by
      rw [blockLength, found]
    rcases lists : (memory.pools index).mFreeList with _ | ⟨header, rest⟩
    · refine ⟨fresh, _, .grown found lists, ?_⟩
      simp only [bind, Except.bind, pop, lists, length_eq]
    · have isFree : (memory.headers header).mAllocSize = 0 := by
        apply labelled.free index
        rw [lists]
        exact List.mem_cons_self
      refine ⟨header, _, .reused found lists, ?_⟩
      simp only [bind, Except.bind, pop, lists, if_pos isFree]
  · refine ⟨fresh, _, .large direct, ?_⟩
    rw [if_pos (by omega), blockLength, direct]

end MemoryPool

namespace Popped

variable {popped : MemoryPool}

theorem headers_eq (taken : Popped platform memory fresh size header popped) :
    popped.headers = memory.headers := by
  cases taken <;> rfl

/-- Popping changes the size of no pool. -/
theorem sameSizes (taken : Popped platform memory fresh size header popped) :
    SameSizes memory popped := by
  cases taken with
  | large => exact ⟨rfl, fun _ => rfl⟩
  | @grown index =>
      have same : SameSizes memory (memory.setPool index
          { memory.pools index with mAllocCount := (memory.pools index).mAllocCount + 1 }) :=
        .setPool rfl
      exact ⟨same.table, same.sizes⟩
  | reused => exact .setPool rfl

/-- The block lies on no list any more, and was not in use. -/
theorem apart (taken : Popped platform memory fresh size header popped)
    (placed : Placed platform memory live) (length_pos : 0 < memory.blockLength platform size)
    (clear : ∀ block ∈ memory.blocks,
      Block.Disjoint ⟨fresh, memory.blockLength platform size⟩ block) :
    Placed platform popped live ∧ ⟨header, memory.blockLength platform size⟩ ∈ popped.blocks ∧
      header ∉ live.map Allocation.header ∧
      ∀ index, header ∉ (popped.pools index).mFreeList := by
  rcases placed.fresh_unused clear length_pos with ⟨freshNotLive, freshNotFree⟩
  have withFresh := placed.alignedMalloc clear length_pos
  cases taken with
  | large direct => exact ⟨withFresh, List.mem_cons_self, freshNotLive, freshNotFree⟩
  | @grown index found nothing =>
      refine ⟨?_, List.mem_cons_self, freshNotLive, ?_⟩
      · exact withFresh.shrink rfl (List.Sublist.refl _)
      · intro other
        rw [MemoryPool.mFreeList_setPool (by rfl)]
        exact freshNotFree other
  | @reused index header rest found top =>
      have headerMem : header ∈ (memory.pools index).mFreeList := by
        rw [top]
        exact List.mem_cons_self
      refine ⟨?_, ?_, placed.taken index header headerMem, ?_⟩
      · refine placed.shrink ?_ ?_
        · rfl
        · rw [top]
          exact List.sublist_cons_self ..
      · rw [MemoryPool.blockLength, found]
        exact placed.listed index header headerMem
      · intro other
        by_cases here : other = index
        · subst here
          have nodup := placed.lists_nodup other
          rw [top] at nodup
          rw [MemoryPool.pools_setPool_self]
          exact (List.nodup_cons.mp nodup).1
        · rw [MemoryPool.pools_setPool_of_ne here]
          intro alsoMem
          exact here (placed.lists_apart other index header alsoMem headerMem)

/-- The block comes into use. -/
theorem placed (taken : Popped platform memory fresh size header popped)
    (placed : Placed platform memory live) (positive : 0 < size)
    (fits : size + platform.sizeofMemAllocInfo ≤ 2 ^ 31 - 1)
    (clear : ∀ block ∈ memory.blocks,
      Block.Disjoint ⟨fresh, memory.blockLength platform size⟩ block) :
    Placed platform popped (⟨header, size, memory.origin platform size⟩ :: live) := by
  have length_pos : 0 < memory.blockLength platform size := by
    have enough : size + platform.sizeofMemAllocInfo ≤ memory.blockLength platform size :=
      MemoryPool.le_blockLength placed.covering (by omega)
    omega
  rcases taken.apart placed length_pos clear with ⟨nowPlaced, blockMem, notLive, notFree⟩
  have same := taken.sameSizes
  rw [← same.origin]
  rw [← same.blockLength] at blockMem
  exact nowPlaced.take positive fits blockMem notLive notFree

/-- Lists only lose the block that is handed out. -/
theorem mem_list (taken : Popped platform memory fresh size header popped) (index other : ℕ) :
    other ∈ (memory.pools index).mFreeList →
      other = header ∨ other ∈ (popped.pools index).mFreeList := by
  intro otherMem
  cases taken with
  | large => exact .inr otherMem
  | @grown changed found nothing =>
      right
      rw [MemoryPool.mFreeList_setPool (by rfl)]
      exact otherMem
  | @reused changed header rest found top =>
      by_cases here : index = changed
      · subst here
        rw [MemoryPool.pools_setPool_self]
        rw [top] at otherMem
        exact List.mem_cons.mp otherMem
      · right
        rw [MemoryPool.pools_setPool_of_ne here]
        exact otherMem

/-- Lists gain nothing. -/
theorem list_subset (taken : Popped platform memory fresh size header popped) (index : ℕ) :
    (popped.pools index).mFreeList ⊆ (memory.pools index).mFreeList := by
  cases taken with
  | large => exact List.Subset.refl _
  | @grown changed found nothing =>
      rw [MemoryPool.mFreeList_setPool (by rfl)]
      exact List.Subset.refl _
  | @reused changed header rest found top =>
      by_cases here : index = changed
      · subst here
        rw [MemoryPool.pools_setPool_self, top]
        exact List.subset_cons_self ..
      · rw [MemoryPool.pools_setPool_of_ne here]
        exact List.Subset.refl _

/-- The pool that serves the size counts one block more. -/
theorem mAllocCount_eq (taken : Popped platform memory fresh size header popped) (index : ℕ) :
    (popped.pools index).mAllocCount =
      (memory.pools index).mAllocCount +
        if memory.origin platform size = some index then 1 else 0 := by
  cases taken with
  | large direct => simp [direct, MemoryPool.alignedMalloc]
  | grown found nothing =>
      rw [MemoryPool.mAllocCount_setPool (by rfl)]
      simp only [found, Option.some.injEq, MemoryPool.alignedMalloc]
  | reused found top =>
      rw [MemoryPool.mAllocCount_setPool (by rfl)]
      simp only [found, Option.some.injEq]

/-- A popped block is counted by its pool. -/
theorem counted (taken : Popped platform memory fresh size header popped)
    (counted : Counted memory live) :
    Counted popped (⟨header, size, memory.origin platform size⟩ :: live) := by
  intro index
  rw [taken.mAllocCount_eq, counted index, Tally.tally_cons]
  split <;> simp

/-- The header of the block gets its size; the other headers stay. -/
theorem labelled (taken : Popped platform memory fresh size header popped)
    (labelled : Labelled platform memory live)
    (placed : Placed platform popped (⟨header, size, memory.origin platform size⟩ :: live))
    (extraInfo : ℤ) :
    Labelled platform
      (popped.setHeader header ⟨size + platform.sizeofMemAllocInfo, extraInfo⟩)
      (⟨header, size, memory.origin platform size⟩ :: live) where
  used := by
    have notLive := (List.nodup_cons.mp placed.live_nodup).1
    refine List.forall_mem_cons.mpr ⟨?_, ?_⟩
    · rw [MemoryPool.headers_setHeader_self]
    · intro allocation allocationMem
      have ne : allocation.header ≠ header := by
        rintro rfl
        exact notLive (List.mem_map.mpr ⟨allocation, allocationMem, rfl⟩)
      rw [MemoryPool.headers_setHeader_of_ne ne, taken.headers_eq]
      exact labelled.used allocation allocationMem
  free := by
    intro index other otherMem
    have ne : other ≠ header := by
      rintro rfl
      exact placed.taken index other otherMem List.mem_cons_self
    rw [MemoryPool.headers_setHeader_of_ne ne, taken.headers_eq]
    exact labelled.free index other (taken.list_subset index otherMem)

end Popped

/-! ## Deallocation -/

theorem Placed.setHeader (placed : Placed platform memory live) (header : ℕ) (info : MemAllocInfo) :
    Placed platform (memory.setHeader header info) live :=
  { placed with }

/-- Where a block goes that is given back. -/
inductive Returned (memory : MemoryPool) (header : ℕ) : Option ℕ → MemoryPool → Prop where
  | large : Returned memory header none (memory.alignedFree header)
  | pushed (index : ℕ) : Returned memory header (some index) (memory.push index header)

namespace MemoryPool

/-- `Deallocate` passes its assertion on a block with a positive size in its header,
and finds the pool for that size. -/
theorem exists_deallocate_of_label (covering : memory.Covering)
    (positive : 0 < size + platform.sizeofMemAllocInfo)
    (label : (memory.headers header).mAllocSize = size + platform.sizeofMemAllocInfo) :
    ∃ after, Returned (memory.setHeader header ⟨0, extraInfo⟩) header
        (memory.origin platform size) after ∧
      memory.deallocate platform (header + platform.sizeofMemAllocInfo) extraInfo = .ok after := by
  simp only [deallocate, detachMemAllocInfo_add, label]
  rw [if_pos positive]
  rcases @origin_cases platform memory covering size positive with
    ⟨small, index, found, _⟩ | ⟨large, direct⟩
  · have same : (memory.setHeader header ⟨0, extraInfo⟩).lookup
        (size + platform.sizeofMemAllocInfo) = .ok index :=
      lookup_eq positive found
    rw [if_neg (by omega), same, found]
    exact ⟨_, .pushed index, rfl⟩
  · rw [if_pos (by omega), direct]
    exact ⟨_, .large, rfl⟩

/-- `Deallocate` passes its assertion on a block in use, and finds the pool that
the block was popped from. -/
theorem exists_deallocate (placed : Placed platform memory live)
    (labelled : Labelled platform memory live) (allocationMem : allocation ∈ live) :
    ∃ after, Returned (memory.setHeader allocation.header ⟨0, extraInfo⟩) allocation.header
        allocation.origin after ∧
      memory.deallocate platform (allocation.header + platform.sizeofMemAllocInfo) extraInfo =
        .ok after := by
  rcases placed.allocated allocation allocationMem with ⟨positive, _, origin_eq, _⟩
  rw [origin_eq]
  exact exists_deallocate_of_label placed.covering (by omega)
    (labelled.used allocation allocationMem)

end MemoryPool

namespace Returned

variable {returned : MemoryPool} {origin : Option ℕ}

theorem headers_eq (given : Returned memory header origin returned) :
    returned.headers = memory.headers := by
  cases given <;> rfl

theorem sameSizes (given : Returned memory header origin returned) :
    SameSizes memory returned := by
  cases given with
  | large => exact ⟨rfl, fun _ => rfl⟩
  | pushed => exact .setPool rfl

/-- The block goes out of use; a small one lies on its list again. -/
theorem placed (given : Returned memory allocation.header origin returned)
    (isOrigin : allocation.origin = origin) (placed : Placed platform memory live)
    (allocationMem : allocation ∈ live) : Placed platform returned (live.erase allocation) := by
  rcases placed.allocated allocation allocationMem with ⟨_, _, origin_eq, blockMem⟩
  have notLive := placed.header_erase allocationMem
  have notFree : ∀ index, allocation.header ∉ (memory.pools index).mFreeList := by
    intro index onList
    exact placed.taken index allocation.header onList (List.mem_map_of_mem allocationMem)
  have erased := placed.erase allocation
  cases given with
  | large => exact erased.alignedFree notLive notFree
  | pushed index =>
      have length_eq : memory.blockLength platform allocation.size =
          (memory.pools index).mAllocSize := by
        rw [MemoryPool.blockLength, ← origin_eq, isOrigin]
      rw [Allocation.block, length_eq] at blockMem
      exact erased.push blockMem notLive notFree

/-- A returned block is no longer counted. -/
theorem counted (given : Returned memory header origin returned)
    (isOrigin : allocation.origin = origin) (counted : Counted memory live)
    (allocationMem : allocation ∈ live) : Counted returned (live.erase allocation) := by
  intro index
  have before := counted index
  have erased : tally Allocation.origin (live.erase allocation) (some index) +
      (if allocation.origin = some index then 1 else 0) =
        tally Allocation.origin live (some index) := Tally.tally_erase allocationMem (some index)
  rw [isOrigin] at erased
  cases given with
  | large =>
      rw [if_neg (by simp), Nat.add_zero] at erased
      rw [erased]
      exact before
  | pushed changed =>
      rw [MemoryPool.push, MemoryPool.mAllocCount_setPool (by exact Int.sub_eq_add_neg)]
      simp only [Option.some.injEq] at erased
      by_cases here : changed = index
      · rw [if_pos here] at erased ⊢
        omega
      · rw [if_neg here] at erased ⊢
        omega

/-- A list gains at most the block that is given back, and loses none. -/
theorem mem_list (given : Returned memory header origin returned) (index other : ℕ) :
    (other ∈ (returned.pools index).mFreeList →
      other = header ∨ other ∈ (memory.pools index).mFreeList) ∧
    (other ∈ (memory.pools index).mFreeList → other ∈ (returned.pools index).mFreeList) := by
  cases given with
  | large => exact ⟨.inr, id⟩
  | pushed changed =>
      rw [MemoryPool.push]
      by_cases here : index = changed
      · subst here
        rw [MemoryPool.pools_setPool_self]
        exact ⟨List.mem_cons.mp, List.mem_cons_of_mem _⟩
      · rw [MemoryPool.pools_setPool_of_ne here]
        exact ⟨.inr, id⟩

/-- The header of the block gets the size 0; the other headers stay. -/
theorem labelled
    (given : Returned (memory.setHeader allocation.header ⟨0, extraInfo⟩) allocation.header origin
      returned)
    (placed : Placed platform memory live) (labelled : Labelled platform memory live)
    (allocationMem : allocation ∈ live) : Labelled platform returned (live.erase allocation) where
  used := by
    intro other otherMem
    have ne : other.header ≠ allocation.header := by
      intro same
      apply placed.header_erase allocationMem
      rw [← same]
      exact List.mem_map_of_mem otherMem
    rw [given.headers_eq, MemoryPool.headers_setHeader_of_ne ne]
    exact labelled.used other (List.mem_of_mem_erase otherMem)
  free := by
    intro index other otherMem
    rw [given.headers_eq]
    by_cases same : other = allocation.header
    · rw [same, MemoryPool.headers_setHeader_self]
    · rw [MemoryPool.headers_setHeader_of_ne same]
      apply labelled.free index
      exact ((given.mem_list index other).1 otherMem).resolve_left same

end Returned

/-! ## Runs -/

/-- The invariant of the memory pool and its users. -/
structure MemoryInvariant (platform : Platform) (user : MemoryUser) : Prop where
  placed : Placed platform user.memory user.live
  labelled : Labelled platform user.memory user.live
  counted : Counted user.memory user.live

/-- The invariant holds of a new memory pool. -/
theorem MemoryInvariant.initially {user : MemoryUser}
    (initial : (allocating platform).Initial user) :
    MemoryInvariant platform user := by
  rcases initial with ⟨headers, memory, constructed, rfl⟩
  rcases MemoryPool.exists_construct platform headers with
    ⟨_, constructed', covering, blocks_eq, unused⟩
  cases constructed.symm.trans constructed'
  have noList : ∀ index, ∀ header, header ∉ (memory.pools index).mFreeList := by
    intro index header
    rw [(unused index).1]
    exact List.not_mem_nil
  refine ⟨⟨covering, ?_, ?_, ?_, ?_, ?_, ?_, ?_, ?_⟩, ⟨?_, ?_⟩, ?_⟩
  · simp [blocks_eq]
  · simp [blocks_eq]
  · exact fun index header headerMem => absurd headerMem (noList index header)
  · intro index
    simp [(unused index).1]
  · exact fun first _ header headerMem => absurd headerMem (noList first header)
  · simp
  · simp
  · simp
  · simp
  · exact fun index header headerMem => absurd headerMem (noList index header)
  · intro index
    simp [(unused index).2]

/-- Every call keeps the invariant. -/
theorem MemoryInvariant.step {before after : MemoryUser} {action : MemoryAction}
    (invariant : MemoryInvariant platform before) (step : MemoryStep platform before action after) :
    MemoryInvariant platform after := by
  rcases invariant with ⟨placed, labelled, counted⟩
  cases step with
  | @allocate memory after live fresh ptr size positive fits clear allocated =>
      rcases @MemoryPool.exists_allocate _ _ _ fresh size placed labelled (by omega) _
          (MemoryPool.realAllocSize_eq positive fits) with
        ⟨header, popped, taken, result⟩
      cases result.symm.trans allocated
      have nowPlaced := taken.placed placed positive fits clear
      simp only [MemoryPool.detachMemAllocInfo_add]
      exact ⟨nowPlaced.setHeader _ _, taken.labelled labelled nowPlaced _, taken.counted counted⟩
  | @deallocate memory after live allocation extraInfo inUse deallocated =>
      rcases @MemoryPool.exists_deallocate _ _ _ _ extraInfo placed labelled inUse with
        ⟨_, given, result⟩
      cases result.symm.trans deallocated
      exact ⟨given.placed rfl (placed.setHeader _ _) inUse, given.labelled placed labelled inUse,
        given.counted rfl counted inUse⟩

/-- The invariant holds in every reachable state. -/
theorem memoryInvariant_of_reachable {user : MemoryUser}
    (reachable : (allocating platform).Reachable user) : MemoryInvariant platform user :=
  reachable.invariant (fun _ => .initially) (fun _ _ _ _ invariant step => invariant.step step)

/-- The block that was given back last is the next one for a size of its pool. -/
theorem MemoryInvariant.exists_reuse {user : MemoryUser} {index : ℕ}
    (invariant : MemoryInvariant platform user) (inUse : allocation ∈ user.live)
    (isOrigin : allocation.origin = some index) (positive : 0 < size)
    (fits : size + platform.sizeofMemAllocInfo ≤ 2 ^ 31 - 1)
    (found : user.memory.origin platform size = some index)
    (deallocated : user.memory.deallocate platform
      (allocation.header + platform.sizeofMemAllocInfo) extraInfo = .ok after) :
    ∃ again, after.allocate platform fresh size =
      .ok (allocation.header + platform.sizeofMemAllocInfo, again) := by
  rcases invariant.step (.deallocate inUse deallocated) with ⟨nowPlaced, nowLabelled, _⟩
  rcases @MemoryPool.exists_deallocate _ _ _ _ extraInfo invariant.placed invariant.labelled inUse
    with ⟨_, given, result⟩
  cases result.symm.trans deallocated
  have same : after.origin platform size = user.memory.origin platform size :=
    given.sameSizes.origin size
  rw [isOrigin] at given
  cases given
  rcases @MemoryPool.exists_allocate _ _ _ fresh size nowPlaced nowLabelled (by omega) _
    (MemoryPool.realAllocSize_eq positive fits) with ⟨header, popped, taken, allocated⟩
  have stillFound := same.trans found
  cases taken with
  | large direct => cases stillFound.symm.trans direct
  | grown again nothing =>
      cases stillFound.symm.trans again
      simp [MemoryPool.push] at nothing
  | reused again top =>
      cases stillFound.symm.trans again
      simp only [MemoryPool.push, MemoryPool.pools_setPool_self, List.cons.injEq] at top
      rw [← top.1] at allocated
      exact ⟨_, allocated⟩

/-- A block on a list stays there until it is handed out. -/
theorem free_of_step {before after : MemoryUser} {action : MemoryAction} {index : ℕ}
    (invariant : MemoryInvariant platform before) (step : MemoryStep platform before action after)
    (free : header ∈ (before.memory.pools index).mFreeList)
    (notOut : header ∉ after.live.map Allocation.header) :
    header ∈ (after.memory.pools index).mFreeList := by
  rcases invariant with ⟨placed, labelled, _⟩
  cases step with
  | @allocate memory after live fresh ptr size positive fits clear allocated =>
      rcases @MemoryPool.exists_allocate _ _ _ fresh size placed labelled (by omega) _
          (MemoryPool.realAllocSize_eq positive fits) with
        ⟨out, popped, taken, result⟩
      cases result.symm.trans allocated
      simp only [MemoryPool.detachMemAllocInfo_add, List.map_cons, List.mem_cons, not_or] at notOut
      exact (taken.mem_list index header free).resolve_left notOut.1
  | @deallocate memory after live allocation extraInfo inUse deallocated =>
      rcases @MemoryPool.exists_deallocate _ _ _ _ extraInfo placed labelled inUse with
        ⟨_, given, result⟩
      cases result.symm.trans deallocated
      exact (given.mem_list index header).2 free

/-- A block stays free until it is allocated again. -/
theorem free_of_run {first last : MemoryUser} {steps : List (MemoryUser × MemoryAction)} {index : ℕ}
    (run : (allocating platform).Run first steps last)
    (reachable : (allocating platform).Reachable first)
    (free : header ∈ (first.memory.pools index).mFreeList)
    (notOut : ∀ state ∈ Machine.visited steps last, header ∉ state.live.map Allocation.header) :
    (allocating platform).Reachable last ∧ header ∈ (last.memory.pools index).mFreeList := by
  induction run with
  | nil => exact ⟨reachable, free⟩
  | snoc run step ih =>
      simp only [Machine.visited, List.map_append, List.map_cons, List.map_nil,
        List.forall_mem_append, List.forall_mem_singleton] at notOut ih
      rcases ih notOut.1 with ⟨reached, still⟩
      refine ⟨reached.step step, ?_⟩
      exact free_of_step (memoryInvariant_of_reachable reached) step still notOut.2

/-- What the users of the memory pool rely on. -/
structure SafeToUse (platform : Platform) (user : MemoryUser) : Prop where
  disjoint : user.live.Pairwise fun first second =>
    Block.Disjoint (first.block platform user.memory) (second.block platform user.memory)
  enough : ∀ allocation ∈ user.live, allocation.block platform user.memory ∈ user.memory.blocks ∧
    allocation.size + platform.sizeofMemAllocInfo ≤ (allocation.block platform user.memory).length
  free : ∀ index, ∀ header ∈ (user.memory.pools index).mFreeList,
    ⟨header, (user.memory.pools index).mAllocSize⟩ ∈ user.memory.blocks ∧
      (user.memory.headers header).mAllocSize = 0
  found : ∀ allocation ∈ user.live, ∀ index, allocation.origin = some index →
    user.memory.lookup (user.memory.headers allocation.header).mAllocSize = .ok index
  counted : ∀ index, (user.memory.pools index).mAllocCount =
    tally Allocation.origin user.live (some index)
  allocates : ∀ fresh, ∀ size : ℤ, 0 < size → size + platform.sizeofMemAllocInfo ≤ 2 ^ 31 - 1 →
    ∃ result, user.memory.allocate platform fresh size = .ok result
  deallocates : ∀ allocation ∈ user.live, ∀ extraInfo, ∃ after,
    user.memory.deallocate platform (allocation.header + platform.sizeofMemAllocInfo) extraInfo =
      .ok after
  /-- A small block is given back, and again before it has been handed out anew. -/
  stopped : ∀ allocation ∈ user.live, allocation.origin ≠ none → ∀ extraInfo after,
    user.memory.deallocate platform (allocation.header + platform.sizeofMemAllocInfo) extraInfo =
      .ok after →
    ∀ steps last, (allocating platform).Run ⟨after, user.live.erase allocation⟩ steps last →
      (∀ state ∈ Machine.visited steps last,
        allocation.header ∉ state.live.map Allocation.header) →
      ∀ again, ∃ memory, memory.pools = last.memory.pools ∧
        last.memory.deallocate platform (allocation.header + platform.sizeofMemAllocInfo) again =
          .error (.crashAssert, memory)

/-- Live blocks do not overlap. -/
theorem Placed.disjoint (placed : Placed platform memory live) :
    live.Pairwise fun first second =>
      Block.Disjoint (first.block platform memory) (second.block platform memory) := by
  refine List.Pairwise.imp_of_mem ?_ (List.Nodup.of_map _ placed.live_nodup)
  intro first second firstMem secondMem ne
  apply placed.apart.forall (placed.allocated first firstMem).2.2.2
    (placed.allocated second secondMem).2.2.2
  intro same
  exact placed.header_ne firstMem secondMem ne (congrArg Block.address same)

/-- `Deallocate` on a block with the size 0 in its header. -/
theorem MemoryPool.deallocate_free (isFree : (memory.headers header).mAllocSize = 0) :
    memory.deallocate platform (header + platform.sizeofMemAllocInfo) extraInfo =
      .error (.crashAssert, memory.setHeader header ⟨0, extraInfo⟩) := by
  simp only [deallocate, detachMemAllocInfo_add, isFree]
  exact if_neg (lt_irrefl 0)

/-- A sequence of `Allocate` and `Deallocate` keeps its blocks apart, and a block
that is given back twice is stopped by the assertion. -/
theorem safeToUse_of_reachable {user : MemoryUser}
    (reachable : (allocating platform).Reachable user) : SafeToUse platform user := by
  rcases memoryInvariant_of_reachable reachable with ⟨placed, labelled, counted⟩
  refine ⟨placed.disjoint, ?_, ?_, ?_, counted, ?_, ?_, ?_⟩
  · intro allocation allocationMem
    rcases placed.allocated allocation allocationMem with ⟨positive, _, _, blockMem⟩
    exact ⟨blockMem, MemoryPool.le_blockLength placed.covering (by omega)⟩
  · intro index header headerMem
    exact ⟨placed.listed index header headerMem, labelled.free index header headerMem⟩
  · intro allocation allocationMem index isOrigin
    rcases placed.allocated allocation allocationMem with ⟨positive, _, origin_eq, _⟩
    rw [labelled.used allocation allocationMem]
    exact MemoryPool.lookup_eq (by omega) (origin_eq.symm.trans isOrigin)
  · intro fresh size positive fits
    rcases @MemoryPool.exists_allocate _ _ _ fresh size placed labelled (by omega) _
        (MemoryPool.realAllocSize_eq positive fits) with
      ⟨_, _, _, result⟩
    exact ⟨_, result⟩
  · intro allocation allocationMem extraInfo
    rcases @MemoryPool.exists_deallocate _ _ _ _ extraInfo placed labelled allocationMem with
      ⟨after, _, result⟩
    exact ⟨after, result⟩
  · intro allocation allocationMem small extraInfo after deallocated steps last run notOut again
    rcases Option.ne_none_iff_exists'.mp small with ⟨index, isOrigin⟩
    rcases @MemoryPool.exists_deallocate _ _ _ _ extraInfo placed labelled allocationMem with
      ⟨_, given, result⟩
    cases result.symm.trans deallocated
    have free : allocation.header ∈ (after.pools index).mFreeList := by
      rw [isOrigin] at given
      cases given
      rw [MemoryPool.push, MemoryPool.pools_setPool_self]
      exact List.mem_cons_self
    have reached := reachable.step (MemoryStep.deallocate allocationMem deallocated)
    rcases free_of_run run reached free notOut with ⟨lastReached, still⟩
    have isFree := (memoryInvariant_of_reachable lastReached).labelled.free index _ still
    refine ⟨last.memory.setHeader allocation.header ⟨0, again⟩, rfl, ?_⟩
    exact MemoryPool.deallocate_free isFree

/-- A block of ten bytes is given back and handed out again. -/
theorem safeToUse_of_reachable_reused : ∃ first fresh steps last,
    (allocating .x64).Initial first ∧ (allocating .x64).Run first steps last ∧ fresh ≠ 4096 ∧
      steps.map Prod.snd = [.allocate 4096 10, .deallocate (4096 + 32) 0, .allocate fresh 10] ∧
      last.live.map Allocation.header = [4096] ∧ SafeToUse .x64 last := by
  rcases MemoryPool.exists_construct .x64 (fun _ => ⟨0, 0⟩) with
    ⟨memory, constructed, covering, blocks_eq, unused⟩
  have initial : (allocating .x64).Initial ⟨memory, []⟩ := ⟨_, memory, constructed, rfl⟩
  rcases memoryInvariant_of_reachable (.ofInitial initial) with ⟨placed, labelled, _⟩
  have fits : (10 : ℤ) + Platform.x64.sizeofMemAllocInfo ≤ 2 ^ 31 - 1 := by decide
  have real : MemoryPool.realAllocSize .x64 10 = 10 + Platform.x64.sizeofMemAllocInfo :=
    MemoryPool.realAllocSize_eq (by decide) fits
  rcases @MemoryPool.origin_cases .x64 memory covering 10 (by decide) with
    ⟨_, index, found, _⟩ | ⟨large, _⟩
  case inr => exact absurd large (by decide)
  have length_pos := @MemoryPool.le_blockLength .x64 memory covering 10 (by decide)
  rcases @MemoryPool.exists_allocate _ _ _ 4096 10 placed labelled (by decide) _ real with
    ⟨header, popped, taken, allocated⟩
  have blocks_popped : header = 4096 ∧ popped.blocks = [⟨4096, memory.blockLength .x64 10⟩] := by
    cases taken with
    | large => exact ⟨rfl, congrArg _ blocks_eq⟩
    | grown => exact ⟨rfl, congrArg _ blocks_eq⟩
    | reused _ top => cases (unused _).1.symm.trans top
  rcases blocks_popped with ⟨rfl, blocks_popped⟩
  have first := @MemoryStep.allocate .x64 _ _ [] _ _ _ (by decide) fits (by simp [blocks_eq])
    allocated
  have reached := (Machine.Reachable.ofInitial initial).step first
  have inUse := List.mem_singleton_self (⟨4096, 10, memory.origin .x64 10⟩ : Allocation)
  rcases (safeToUse_of_reachable reached).deallocates _ inUse 0 with ⟨after, deallocated⟩
  have second := MemoryStep.deallocate inUse deallocated
  rw [List.erase_cons_head] at second
  have invariant := memoryInvariant_of_reachable reached
  rcases @MemoryPool.exists_deallocate _ _ _ _ 0 invariant.placed invariant.labelled inUse with
    ⟨_, given, result⟩
  cases result.symm.trans deallocated
  let fresh := 4096 + memory.blockLength .x64 10
  rcases @MemoryInvariant.exists_reuse _ _ _ fresh _ _ _ _ invariant inUse found (by decide) fits
    ((taken.sameSizes.origin 10).trans found) deallocated with ⟨again, reused⟩
  have sameBlocks : after.blocks = popped.blocks := by
    simp only [found] at given
    cases given
    rfl
  have clear : ∀ block ∈ after.blocks,
      Block.Disjoint ⟨fresh, after.blockLength .x64 10⟩ block := by
    rw [sameBlocks, blocks_popped, List.forall_mem_singleton]
    exact .inr le_rfl
  have third := @MemoryStep.allocate .x64 _ _ [] _ _ _ (by decide) fits clear reused
  have start : (allocating .x64).Run ⟨memory, []⟩ [] ⟨memory, []⟩ := .nil _
  have run := ((start.snoc first).snoc second).snoc third
  refine ⟨_, fresh, _, _, initial, run, by omega, rfl, rfl, ?_⟩
  exact safeToUse_of_reachable ((reached.step second).step third)

/-- `mAllocCount` fits into a `long` as long as the memory in use lies below 32 GiB
on Win32, and below 64 GiB on x64. -/
theorem mAllocCount_lt_of_reachable {user : MemoryUser}
    (reachable : (allocating platform).Reachable user)
    (within : ∀ block ∈ user.memory.blocks,
      block.address + block.length ≤ platform.sizeofMemAllocInfo * 2 ^ 31) (index : ℕ) :
    (user.memory.pools index).mAllocCount < 2 ^ 31 := by
  rcases memoryInvariant_of_reachable reachable with ⟨placed, _, counted⟩
  let blocks := user.live.map fun allocation => allocation.block platform user.memory
  have inMemory : ∀ block ∈ blocks, block ∈ user.memory.blocks ∧
      platform.sizeofMemAllocInfo + 1 ≤ block.length := by
    refine List.forall_mem_map.mpr fun allocation allocationMem => ?_
    rcases placed.allocated allocation allocationMem with ⟨positive, _, _, blockMem⟩
    have enough : (allocation.size + platform.sizeofMemAllocInfo : ℤ) ≤
        (allocation.block platform user.memory).length :=
      MemoryPool.le_blockLength placed.covering (by omega)
    exact ⟨blockMem, by omega⟩
  have few := Block.length_mul_le (List.pairwise_map.mpr placed.disjoint)
    (fun block blockMem => (inMemory block blockMem).2)
    (fun block blockMem => within block (inMemory block blockMem).1)
  rw [List.length_map] at few
  have count_le : tally Allocation.origin user.live (some index) ≤ user.live.length :=
    Tally.tally_le_length _
  rw [counted index]
  by_contra many
  have lower : 2 ^ 31 * (platform.sizeofMemAllocInfo + 1) ≤
      user.live.length * (platform.sizeofMemAllocInfo + 1) :=
    Nat.mul_le_mul_right _ (by omega)
  omega

end Gsp.Homework4
