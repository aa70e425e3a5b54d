import Mathlib.Data.Finset.Card
import Mathlib.Order.Interval.Finset.Nat
import Gsp.Homework4.MemoryPool

/-!
# The blocks of the memory pool

Each block that `_aligned_malloc` has returned is in use or on the free list of
one pool. A pool is found again for a block through the size in its header, and
a block on a free list has the size 0 in its header.
-/

namespace Gsp.Homework4

/-- A block in use, with the size asked for and the pool it was popped from. -/
structure Allocation where
  header : ℕ
  size : ℤ
  origin : Option ℕ
deriving DecidableEq

/-- The pool and the blocks in use. -/
structure MemoryUser where
  memory : MemoryPool
  live : List Allocation

/-- A call on the memory pool. -/
inductive MemoryAction where
  | allocate (fresh : ℕ) (size : ℤ)
  | deallocate (ptr : ℕ) (extraInfo : ℤ)

variable (platform : Platform)

namespace MemoryPool

/-- The pool that serves a size, if it is small. -/
def origin (size : ℤ) (memory : MemoryPool) : Option ℕ :=
  if size + platform.sizeofMemAllocInfo ≤ maxAllocSize then
    memory.mSmallSizeMemoryPoolTable (size + platform.sizeofMemAllocInfo).toNat
  else none

/-- The length of the block for a size. -/
def blockLength (size : ℤ) (memory : MemoryPool) : ℕ :=
  match memory.origin platform size with
  | some index => (memory.pools index).mAllocSize
  | none => (size + platform.sizeofMemAllocInfo).toNat

end MemoryPool

/-- Calls of `Allocate` with a positive size that fits into an `int` together with
the header, and of `Deallocate` on blocks in use. `_aligned_malloc`, if it is
called, returns a block that is clear of the others. -/
inductive MemoryStep : MemoryUser → MemoryAction → MemoryUser → Prop where
  | allocate {memory after : MemoryPool} {live : List Allocation} {fresh ptr : ℕ} {size : ℤ}
      (positive : 0 < size) (fits : size + platform.sizeofMemAllocInfo ≤ 2 ^ 31 - 1)
      (clear : ∀ block ∈ memory.blocks,
        Block.Disjoint ⟨fresh, memory.blockLength platform size⟩ block)
      (allocated : memory.allocate platform fresh size = .ok (ptr, after)) :
      MemoryStep ⟨memory, live⟩ (.allocate fresh size)
        ⟨after, ⟨MemoryPool.detachMemAllocInfo platform ptr, size, memory.origin platform size⟩ ::
          live⟩
  | deallocate {memory after : MemoryPool} {live : List Allocation} {allocation : Allocation}
      {extraInfo : ℤ} (inUse : allocation ∈ live)
      (deallocated : memory.deallocate platform
        (allocation.header + platform.sizeofMemAllocInfo) extraInfo = .ok after) :
      MemoryStep ⟨memory, live⟩
        (.deallocate (allocation.header + platform.sizeofMemAllocInfo) extraInfo)
        ⟨after, live.erase allocation⟩

/-- A newly constructed memory pool and its users. -/
def allocating : Machine MemoryUser MemoryAction where
  Initial user := ∃ headers memory, MemoryPool.construct platform headers = some memory ∧
    user = ⟨memory, []⟩
  Step := MemoryStep platform

variable {platform} {memory : MemoryPool} {live : List Allocation} {allocation : Allocation}

/-- The block of an allocation. -/
def Allocation.block (platform : Platform) (memory : MemoryPool) (allocation : Allocation) :
    Block :=
  ⟨allocation.header, memory.blockLength platform allocation.size⟩

namespace MemoryPool

theorem realAllocSize_eq {size : ℤ} (positive : 0 < size)
    (fits : size + platform.sizeofMemAllocInfo ≤ 2 ^ 31 - 1) :
    realAllocSize platform size = size + platform.sizeofMemAllocInfo :=
  Word.wrap32_eq (by omega) (by omega)

theorem lookup_eq {size : ℤ} {index : ℕ} (positive : 0 < size + platform.sizeofMemAllocInfo)
    (found : memory.origin platform size = some index) :
    memory.lookup (size + platform.sizeofMemAllocInfo) = .ok index := by
  simp only [origin] at found
  split at found
  · next small =>
      rw [lookup, if_pos ⟨by omega, small⟩, found]
  · cases found

/-- Small sizes are served by a pool that is large enough, the others directly. -/
theorem origin_cases (covering : memory.Covering) {size : ℤ}
    (positive : 0 < size + platform.sizeofMemAllocInfo) :
    (size + platform.sizeofMemAllocInfo ≤ maxAllocSize ∧
      ∃ index, memory.origin platform size = some index ∧
        size + platform.sizeofMemAllocInfo ≤ (memory.pools index).mAllocSize) ∨
    (maxAllocSize < size + platform.sizeofMemAllocInfo ∧ memory.origin platform size = none) := by
  by_cases small : size + platform.sizeofMemAllocInfo ≤ maxAllocSize
  · left
    rcases covering (size + platform.sizeofMemAllocInfo).toNat (by omega) (by omega) with
      ⟨index, found, enough⟩
    refine ⟨small, index, ?_, by omega⟩
    rw [origin, if_pos small, found]
  · right
    exact ⟨by omega, by rw [origin, if_neg small]⟩

/-- A block has room for what was asked of it. -/
theorem le_blockLength (covering : memory.Covering) {size : ℤ}
    (positive : 0 < size + platform.sizeofMemAllocInfo) :
    size + platform.sizeofMemAllocInfo ≤ memory.blockLength platform size := by
  rcases origin_cases covering positive with ⟨_, index, found, enough⟩ | ⟨_, direct⟩
  · rw [blockLength, found]
    exact enough
  · rw [blockLength, direct]
    exact Int.self_le_toNat _

end MemoryPool

/-! ## Room in memory -/

instance : Std.Symm Block.Disjoint where
  symm _ _ := Or.symm

/-- Blocks that share no byte have as many bytes as all of them together. -/
theorem Block.exists_bytes {blocks : List Block} {least : ℕ}
    (apart : blocks.Pairwise Block.Disjoint) (long : ∀ block ∈ blocks, least ≤ block.length) :
    ∃ bytes : Finset ℕ, blocks.length * least ≤ bytes.card ∧
      ∀ byte ∈ bytes, ∃ block ∈ blocks,
        block.address ≤ byte ∧ byte < block.address + block.length := by
  induction blocks with
  | nil => exact ⟨∅, by simp, by simp⟩
  | cons block blocks ih =>
      rcases List.pairwise_cons.mp apart with ⟨clear, apart⟩
      rcases List.forall_mem_cons.mp long with ⟨blockLong, long⟩
      rcases ih apart long with ⟨bytes, many, inBlocks⟩
      let own := Finset.Ico block.address (block.address + block.length)
      have disjoint : (own ∩ bytes) = ∅ := by
        refine Finset.eq_empty_of_forall_notMem ?_
        intro byte inBoth
        rcases Finset.mem_inter.mp inBoth with ⟨isOwn, byteMem⟩
        rcases Finset.mem_Ico.mp isOwn with ⟨low, high⟩
        rcases inBlocks byte byteMem with ⟨other, otherMem, otherLow, otherHigh⟩
        rcases clear other otherMem with before | behind <;> omega
      refine ⟨own ∪ bytes, ?_, ?_⟩
      · rw [Finset.card_union_of_disjoint (Finset.disjoint_iff_inter_eq_empty.mpr disjoint),
          Nat.card_Ico, List.length_cons, Nat.succ_mul]
        omega
      · intro byte byteMem
        rcases Finset.mem_union.mp byteMem with isOwn | inOthers
        · rcases Finset.mem_Ico.mp isOwn with ⟨low, high⟩
          exact ⟨block, List.mem_cons_self, low, high⟩
        · rcases inBlocks byte inOthers with ⟨other, otherMem, bounds⟩
          exact ⟨other, List.mem_cons_of_mem _ otherMem, bounds⟩

/-- So many blocks fit below a limit. -/
theorem Block.length_mul_le {blocks : List Block} {least limit : ℕ}
    (apart : blocks.Pairwise Block.Disjoint) (long : ∀ block ∈ blocks, least ≤ block.length)
    (within : ∀ block ∈ blocks, block.address + block.length ≤ limit) :
    blocks.length * least ≤ limit := by
  rcases exists_bytes apart long with ⟨bytes, many, inBlocks⟩
  have below : bytes ⊆ Finset.range limit := by
    intro byte byteMem
    rcases inBlocks byte byteMem with ⟨block, blockMem, _, high⟩
    exact Finset.mem_range.mpr (high.trans_le (within block blockMem))
  calc
    blocks.length * least ≤ bytes.card := many
    _ ≤ (Finset.range limit).card := Finset.card_le_card below
    _ = limit := Finset.card_range limit

/-! ## The invariant -/

/-- Where the blocks are: each in use or on one free list. -/
structure Placed (platform : Platform) (memory : MemoryPool) (live : List Allocation) : Prop where
  covering : memory.Covering
  apart : memory.blocks.Pairwise Block.Disjoint
  nonempty : ∀ block ∈ memory.blocks, 0 < block.length
  listed : ∀ index, ∀ header ∈ (memory.pools index).mFreeList,
    ⟨header, (memory.pools index).mAllocSize⟩ ∈ memory.blocks
  lists_nodup : ∀ index, (memory.pools index).mFreeList.Nodup
  lists_apart : ∀ first second header, header ∈ (memory.pools first).mFreeList →
    header ∈ (memory.pools second).mFreeList → first = second
  allocated : ∀ allocation ∈ live, 0 < allocation.size ∧
    allocation.size + platform.sizeofMemAllocInfo ≤ 2 ^ 31 - 1 ∧
    allocation.origin = memory.origin platform allocation.size ∧
    allocation.block platform memory ∈ memory.blocks
  live_nodup : (live.map Allocation.header).Nodup
  taken : ∀ index, ∀ header ∈ (memory.pools index).mFreeList, header ∉ live.map Allocation.header

/-- What the headers say: the size of a block in use, and 0 for a free one. -/
structure Labelled (platform : Platform) (memory : MemoryPool) (live : List Allocation) : Prop where
  used : ∀ allocation ∈ live, (memory.headers allocation.header).mAllocSize =
    allocation.size + platform.sizeofMemAllocInfo
  free : ∀ index, ∀ header ∈ (memory.pools index).mFreeList, (memory.headers header).mAllocSize = 0

/-- What moving blocks between the lists does not change. -/
structure SameSizes (memory after : MemoryPool) : Prop where
  table : after.mSmallSizeMemoryPoolTable = memory.mSmallSizeMemoryPoolTable
  sizes : ∀ index, (after.pools index).mAllocSize = (memory.pools index).mAllocSize

namespace SameSizes

variable {after : MemoryPool}

/-- Pools of the same sizes cover the same requests. -/
theorem covering (same : SameSizes memory after) (covering : memory.Covering) : after.Covering := by
  intro size positive small
  rw [same.table]
  simp only [same.sizes]
  exact covering size positive small

theorem origin (same : SameSizes memory after) (size : ℤ) :
    after.origin platform size = memory.origin platform size := by
  simp only [MemoryPool.origin, same.table]

theorem blockLength (same : SameSizes memory after) (size : ℤ) :
    after.blockLength platform size = memory.blockLength platform size := by
  simp only [MemoryPool.blockLength, same.origin, same.sizes]

theorem block (same : SameSizes memory after) (allocation : Allocation) :
    allocation.block platform after = allocation.block platform memory := by
  simp only [Allocation.block, same.blockLength]

theorem setPool {index : ℕ} {pool : SmallSizeMemoryPool}
    (size_eq : pool.mAllocSize = (memory.pools index).mAllocSize) :
    SameSizes memory (memory.setPool index pool) where
  table := rfl
  sizes other := by
    by_cases same : other = index
    · subst same
      rw [MemoryPool.pools_setPool_self, size_eq]
    · rw [MemoryPool.pools_setPool_of_ne same]

end SameSizes

namespace Placed

variable {fresh length : ℕ} {size : ℤ}

/-- A fresh block starts where no live one does. -/
theorem address_ne (placed : Placed platform memory live)
    (clear : ∀ block ∈ memory.blocks, Block.Disjoint ⟨fresh, length⟩ block) (positive : 0 < length)
    {block : Block} (blockMem : block ∈ memory.blocks) : block.address ≠ fresh := by
  have apart := clear block blockMem
  have nonempty := placed.nonempty block blockMem
  simp only [Block.Disjoint] at apart
  omega

/-- A new block is neither in use nor on a list. -/
theorem fresh_unused (placed : Placed platform memory live)
    (clear : ∀ block ∈ memory.blocks, Block.Disjoint ⟨fresh, length⟩ block)
    (positive : 0 < length) : fresh ∉ live.map Allocation.header ∧
      ∀ index, fresh ∉ (memory.pools index).mFreeList := by
  constructor
  · intro inUse
    rcases List.mem_map.mp inUse with ⟨allocation, allocationMem, rfl⟩
    have blockMem := (placed.allocated allocation allocationMem).2.2.2
    exact placed.address_ne clear positive blockMem rfl
  · intro index onList
    exact placed.address_ne clear positive (placed.listed index fresh onList) rfl

/-- A fresh block keeps the live ones in place. -/
theorem alignedMalloc (placed : Placed platform memory live)
    (clear : ∀ block ∈ memory.blocks, Block.Disjoint ⟨fresh, length⟩ block)
    (positive : 0 < length) : Placed platform (memory.alignedMalloc fresh length) live :=
  { placed with
    apart := placed.apart.cons clear
    nonempty := List.forall_mem_cons.mpr ⟨positive, placed.nonempty⟩
    listed := fun index header headerMem =>
      List.mem_cons_of_mem _ (placed.listed index header headerMem)
    allocated := by
      intro allocation allocationMem
      rcases placed.allocated allocation allocationMem with ⟨size_pos, size_le, origin_eq, blockMem⟩
      exact ⟨size_pos, size_le, origin_eq, List.mem_cons_of_mem _ blockMem⟩ }

/-- A block comes into use that is on no list. -/
theorem take (placed : Placed platform memory live) {header : ℕ} (size_pos : 0 < size)
    (size_le : size + platform.sizeofMemAllocInfo ≤ 2 ^ 31 - 1)
    (blockMem : ⟨header, memory.blockLength platform size⟩ ∈ memory.blocks)
    (notLive : header ∉ live.map Allocation.header)
    (notFree : ∀ index, header ∉ (memory.pools index).mFreeList) :
    Placed platform memory (⟨header, size, memory.origin platform size⟩ :: live) :=
  { placed with
    allocated := by
      refine List.forall_mem_cons.mpr ⟨⟨size_pos, size_le, rfl, blockMem⟩, ?_⟩
      exact placed.allocated
    live_nodup := List.nodup_cons.mpr ⟨notLive, placed.live_nodup⟩
    taken := by
      intro index other otherMem
      rw [List.map_cons, List.mem_cons, not_or]
      refine ⟨?_, placed.taken index other otherMem⟩
      rintro rfl
      exact notFree index otherMem }

/-- A pool whose list has changed, while its size has not. -/
theorem setPool (placed : Placed platform memory live) {index : ℕ} {pool : SmallSizeMemoryPool}
    (size_eq : pool.mAllocSize = (memory.pools index).mAllocSize)
    (listed : ∀ header ∈ pool.mFreeList, ⟨header, pool.mAllocSize⟩ ∈ memory.blocks)
    (nodup : pool.mFreeList.Nodup)
    (notElsewhere : ∀ header ∈ pool.mFreeList, ∀ other, other ≠ index →
      header ∉ (memory.pools other).mFreeList)
    (notLive : ∀ header ∈ pool.mFreeList, header ∉ live.map Allocation.header) :
    Placed platform (memory.setPool index pool) live where
  covering := (SameSizes.setPool size_eq).covering placed.covering
  apart := placed.apart
  nonempty := placed.nonempty
  live_nodup := placed.live_nodup
  listed other header headerMem := by
    by_cases same : other = index
    · subst same
      rw [MemoryPool.pools_setPool_self] at headerMem ⊢
      exact listed header headerMem
    · rw [MemoryPool.pools_setPool_of_ne same] at headerMem ⊢
      exact placed.listed other header headerMem
  lists_nodup other := by
    by_cases same : other = index
    · subst same
      rw [MemoryPool.pools_setPool_self]
      exact nodup
    · rw [MemoryPool.pools_setPool_of_ne same]
      exact placed.lists_nodup other
  lists_apart first second header firstMem secondMem := by
    by_cases isFirst : first = index <;> by_cases isSecond : second = index
    · exact isFirst.trans isSecond.symm
    · subst isFirst
      rw [MemoryPool.pools_setPool_self] at firstMem
      rw [MemoryPool.pools_setPool_of_ne isSecond] at secondMem
      exact absurd secondMem (notElsewhere header firstMem second isSecond)
    · subst isSecond
      rw [MemoryPool.pools_setPool_self] at secondMem
      rw [MemoryPool.pools_setPool_of_ne isFirst] at firstMem
      exact absurd firstMem (notElsewhere header secondMem first isFirst)
    · rw [MemoryPool.pools_setPool_of_ne isFirst] at firstMem
      rw [MemoryPool.pools_setPool_of_ne isSecond] at secondMem
      exact placed.lists_apart first second header firstMem secondMem
  taken other header headerMem := by
    by_cases same : other = index
    · subst same
      rw [MemoryPool.pools_setPool_self] at headerMem
      exact notLive header headerMem
    · rw [MemoryPool.pools_setPool_of_ne same] at headerMem
      exact placed.taken other header headerMem
  allocated allocation allocationMem := by
    rcases placed.allocated allocation allocationMem with ⟨size_pos, size_le, origin_eq, blockMem⟩
    have same : SameSizes memory (memory.setPool index pool) := .setPool size_eq
    refine ⟨size_pos, size_le, ?_, ?_⟩
    · rw [same.origin, origin_eq]
    · rw [same.block]
      exact blockMem

/-- A block goes out of use. -/
theorem erase (placed : Placed platform memory live) (allocation : Allocation) :
    Placed platform memory (live.erase allocation) :=
  { placed with
    allocated := fun other otherMem => placed.allocated other (List.mem_of_mem_erase otherMem)
    live_nodup := placed.live_nodup.sublist (List.erase_sublist.map _)
    taken := by
      intro index header headerMem isLive
      exact placed.taken index header headerMem ((List.erase_sublist.map _).subset isLive) }

/-- Blocks in use have different headers. -/
theorem header_ne (placed : Placed platform memory live) {first second : Allocation}
    (firstMem : first ∈ live) (secondMem : second ∈ live) (ne : first ≠ second) :
    first.header ≠ second.header := by
  intro same
  exact ne (List.inj_on_of_nodup_map placed.live_nodup firstMem secondMem same)

theorem header_erase (placed : Placed platform memory live) (allocationMem : allocation ∈ live) :
    allocation.header ∉ (live.erase allocation).map Allocation.header := by
  intro isMem
  rcases List.mem_map.mp isMem with ⟨other, otherMem, same⟩
  have distinct := (List.Nodup.of_map _ placed.live_nodup).mem_erase_iff.mp otherMem
  exact placed.header_ne distinct.2 allocationMem distinct.1 same

/-- A block that is neither in use nor on a list is given back. -/
theorem alignedFree (placed : Placed platform memory live) {header : ℕ}
    (notLive : header ∉ live.map Allocation.header)
    (notFree : ∀ index, header ∉ (memory.pools index).mFreeList) :
    Placed platform (memory.alignedFree header) live := by
  refine { placed with apart := ?_, nonempty := ?_, listed := ?_, allocated := ?_ }
  · exact placed.apart.sublist List.filter_sublist
  · intro block blockMem
    exact placed.nonempty block (List.mem_of_mem_filter blockMem)
  · intro index other otherMem
    refine List.mem_filter.mpr ⟨placed.listed index other otherMem, ?_⟩
    simp only [decide_eq_true_eq]
    rintro rfl
    exact notFree index otherMem
  · intro other otherMem
    rcases placed.allocated other otherMem with ⟨size_pos, size_le, origin_eq, blockMem⟩
    refine ⟨size_pos, size_le, origin_eq, List.mem_filter.mpr ⟨blockMem, ?_⟩⟩
    apply decide_eq_true
    intro same
    apply notLive
    rw [← same]
    exact List.mem_map_of_mem otherMem

/-- Such a block is put on the list of a pool of its length. -/
theorem push (placed : Placed platform memory live) {index header : ℕ}
    (blockMem : ⟨header, (memory.pools index).mAllocSize⟩ ∈ memory.blocks)
    (notLive : header ∉ live.map Allocation.header)
    (notFree : ∀ index, header ∉ (memory.pools index).mFreeList) :
    Placed platform (memory.push index header) live := by
  refine placed.setPool rfl ?_ ?_ ?_ ?_
  · exact List.forall_mem_cons.mpr ⟨blockMem, placed.listed index⟩
  · exact List.nodup_cons.mpr ⟨notFree index, placed.lists_nodup index⟩
  · refine List.forall_mem_cons.mpr ⟨fun other _ => notFree other, ?_⟩
    intro listed listedMem other ne otherMem
    exact ne (placed.lists_apart other index listed otherMem listedMem)
  · exact List.forall_mem_cons.mpr ⟨notLive, placed.taken index⟩

end Placed

end Gsp.Homework4
