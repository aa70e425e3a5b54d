import Gsp.Homework4.MemoryReuse

/-!
# The allocator of the containers

`STLAllocator` of `XTL.h` asks the memory pool for the bytes of its elements, as
an `int`. Here the pool is used with whatever sizes these conversions lead to, so
that a block may be shorter than its user believes.
-/

namespace Gsp.Homework4

/-- The width of `size_t`. -/
def Platform.sizeBits : Platform → ℕ
  | .win32 => 32
  | .x64 => 64

variable (platform : Platform)

namespace STLAllocator

/-- `(int)n*sizeof(T)`, as the `int` which `Allocate` takes. -/
def size (sizeofT n : ℕ) : ℤ :=
  Word.wrap32 (Word.wrap32 n * sizeofT % 2 ^ platform.sizeBits)

/-- `allocate`. -/
def allocate (sizeofT fresh n : ℕ) (memory : MemoryPool) : Except Fault (ℕ × MemoryPool) :=
  memory.allocate platform fresh (size platform sizeofT n)

/-- `deallocate`. -/
def deallocate (ptr : ℕ) (memory : MemoryPool) : Except (Fault × MemoryPool) MemoryPool :=
  memory.deallocate platform ptr (-1599)

/-- What a container relies on: the table is not left, and a block that is
returned has room for the elements behind its header. -/
structure Serves (sizeofT fresh n : ℕ) (memory : MemoryPool) : Prop where
  inTable : MemoryPool.realAllocSize platform (size platform sizeofT n) ≤ maxAllocSize →
    1 ≤ MemoryPool.realAllocSize platform (size platform sizeofT n)
  room : ∀ ptr after, allocate platform sizeofT fresh n memory = .ok (ptr, after) →
    ∃ block ∈ after.blocks, ptr = block.address + platform.sizeofMemAllocInfo ∧
      platform.sizeofMemAllocInfo + n * sizeofT ≤ block.length

end STLAllocator

/-! ## Calls with any size -/

/-- The length that a block for this size has. -/
def MemoryPool.realLength (size : ℤ) (memory : MemoryPool) : ℕ :=
  memory.blockLength platform (realAllocSize platform size - platform.sizeofMemAllocInfo)

/-- The pool and the headers of the blocks in use. -/
structure SharedPool where
  memory : MemoryPool
  used : List ℕ

/-- Calls of `Allocate` with any size, and of `Deallocate` on blocks in use. -/
inductive SharedStep : SharedPool → MemoryAction → SharedPool → Prop where
  | allocate {memory after : MemoryPool} {used : List ℕ} {fresh ptr : ℕ} {size : ℤ}
      (clear : ∀ block ∈ memory.blocks,
        Block.Disjoint ⟨fresh, memory.realLength platform size⟩ block)
      (allocated : memory.allocate platform fresh size = .ok (ptr, after)) :
      SharedStep ⟨memory, used⟩ (.allocate fresh size)
        ⟨after, MemoryPool.detachMemAllocInfo platform ptr :: used⟩
  | deallocate {memory after : MemoryPool} {used : List ℕ} {header : ℕ} {extraInfo : ℤ}
      (inUse : header ∈ used)
      (deallocated : memory.deallocate platform (header + platform.sizeofMemAllocInfo) extraInfo =
        .ok after) :
      SharedStep ⟨memory, used⟩
        (.deallocate (header + platform.sizeofMemAllocInfo) extraInfo)
        ⟨after, used.filter (· ≠ header)⟩

/-- A newly constructed memory pool and its users. -/
def sharing : Machine SharedPool MemoryAction where
  Initial shared := ∃ headers memory, MemoryPool.construct platform headers = some memory ∧
    shared = ⟨memory, []⟩
  Step := SharedStep platform

/-- The lists are in order, and every block in use can be given back. -/
structure Stocked (memory : MemoryPool) (used : List ℕ) : Prop where
  placed : Placed platform memory []
  labelled : Labelled platform memory []
  small : ∀ index, (memory.pools index).mAllocSize ≤ maxAllocSize
  noPool : memory.mSmallSizeMemoryPoolTable 0 = none
  inUse : ∀ header ∈ used, ∃ size : ℤ, 0 < size + platform.sizeofMemAllocInfo ∧
    (memory.headers header).mAllocSize = size + platform.sizeofMemAllocInfo ∧
    ⟨header, memory.blockLength platform size⟩ ∈ memory.blocks

variable {platform} {memory after popped returned : MemoryPool} {used : List ℕ}
  {fresh header sizeofT n : ℕ} {size extraInfo : ℤ} {origin : Option ℕ}

/-! ## Construction -/

namespace Constructing

variable {state built : Constructing}

/-- No pool is larger than the largest entry of the table, whose first entry is null. -/
def Small (state : Constructing) : Prop :=
  (∀ index, (state.pools index).mAllocSize ≤ maxAllocSize) ∧ state.table 0 = none

/-- A pool of a small size keeps the pools small. -/
theorem small_addPool (small : state.Small) {i : ℕ} (le : i ≤ maxAllocSize)
    (added : state.addPool platform i = some built) : built.Small := by
  rw [addPool] at added
  split at added
  · cases added
    constructor
    · intro index
      by_cases new : index = state.created
      · subst new
        simpa using le
      · simp only [Function.update_of_ne new]
        exact small.1 index
    · simp only [foldl_update]
      rw [if_neg (by omega)]
      exact small.2
  · cases added

theorem small_foldlM (small : state.Small) {sizes : List ℕ} (le : ∀ i ∈ sizes, i ≤ maxAllocSize)
    (folded : sizes.foldlM (Constructing.addPool platform) state = some built) : built.Small := by
  induction sizes generalizing state with
  | nil =>
      cases folded
      exact small
  | cons i sizes ih =>
      rw [List.foldlM_cons] at folded
      rcases Option.bind_eq_some_iff.mp folded with ⟨next, added, rest⟩
      rw [List.forall_mem_cons] at le
      exact ih (small_addPool small le.1 added) le.2 rest

end Constructing

theorem MemoryPool.small_construct {headers : ℕ → MemAllocInfo}
    (constructed : construct platform headers = some memory) :
    (∀ index, (memory.pools index).mAllocSize ≤ maxAllocSize) ∧
      memory.mSmallSizeMemoryPoolTable 0 = none := by
  rcases Option.map_eq_some_iff.mp constructed with ⟨state, folded, rfl⟩
  have start : Constructing.Small ⟨fun _ => none, fun _ => ⟨[], 0, 0⟩, 0, 0⟩ :=
    ⟨fun _ => Nat.zero_le _, rfl⟩
  exact Constructing.small_foldlM start (by decide) folded

/-! ## Allocation and deallocation -/

theorem Popped.blocks_subset (taken : Popped platform memory fresh size header popped) :
    memory.blocks ⊆ popped.blocks := by
  cases taken with
  | large => exact List.subset_cons_self ..
  | grown => exact List.subset_cons_self ..
  | reused => exact List.Subset.refl _

theorem Returned.mem_blocks (given : Returned memory header origin returned) {block : Block}
    (blockMem : block ∈ memory.blocks) (other : block.address ≠ header) :
    block ∈ returned.blocks := by
  cases given with
  | large => exact List.mem_filter.mpr ⟨blockMem, decide_eq_true other⟩
  | pushed => exact blockMem

namespace Stocked

/-- A block in use is in no free list. -/
theorem notFree (stocked : Stocked platform memory used) (inUse : header ∈ used) (index : ℕ) :
    header ∉ (memory.pools index).mFreeList := by
  intro onList
  rcases stocked.inUse header inUse with ⟨size, positive, label, _⟩
  rw [stocked.labelled.free index header onList] at label
  omega

/-- A call that returns has asked for a block of at least one byte. -/
theorem realAllocSize_pos (stocked : Stocked platform memory used) {result : ℕ × MemoryPool}
    (allocated : memory.allocate platform fresh size = .ok result) :
    1 ≤ MemoryPool.realAllocSize platform size := by
  by_contra notPositive
  have notLarge : ¬(maxAllocSize : ℤ) < MemoryPool.realAllocSize platform size := by
    rw [maxAllocSize]
    omega
  simp only [MemoryPool.allocate, if_neg notLarge] at allocated
  rcases Except.bind_eq_ok.mp allocated with ⟨index, found, _⟩
  rw [MemoryPool.lookup] at found
  split at found
  · rename_i inTable
    have zero : (MemoryPool.realAllocSize platform size).toNat = 0 := by omega
    rw [zero, stocked.noPool] at found
    cases found
  · cases found

/-- Every request of a positive size is met. -/
theorem exists_allocate (stocked : Stocked platform memory used) (fresh : ℕ)
    (positive : 1 ≤ MemoryPool.realAllocSize platform size) :
    ∃ header popped,
      Popped platform memory fresh
        (MemoryPool.realAllocSize platform size - platform.sizeofMemAllocInfo) header popped ∧
      memory.allocate platform fresh size =
        .ok (popped.attachMemAllocInfo platform header
          (MemoryPool.realAllocSize platform size)) := by
  have whole : MemoryPool.realAllocSize platform size =
      MemoryPool.realAllocSize platform size - platform.sizeofMemAllocInfo +
        platform.sizeofMemAllocInfo :=
    (Int.sub_add_cancel _ _).symm
  have allocates := @MemoryPool.exists_allocate _ _ _ fresh _ stocked.placed stocked.labelled
    (by omega) size whole
  rwa [← whole] at allocates

/-- A block has room for its header and its bytes. -/
theorem realLength_ge (stocked : Stocked platform memory used)
    (positive : 1 ≤ MemoryPool.realAllocSize platform size) :
    MemoryPool.realAllocSize platform size ≤ memory.realLength platform size := by
  have enough := @MemoryPool.le_blockLength platform _ stocked.placed.covering
    (MemoryPool.realAllocSize platform size - platform.sizeofMemAllocInfo) (by omega)
  rwa [Int.sub_add_cancel] at enough

theorem realLength_pos (stocked : Stocked platform memory used)
    (positive : 1 ≤ MemoryPool.realAllocSize platform size) :
    0 < memory.realLength platform size := by
  have long := stocked.realLength_ge positive
  omega

/-- The block that is handed out, and that it is on no list any more. -/
theorem popped_apart (stocked : Stocked platform memory used)
    (positive : 1 ≤ MemoryPool.realAllocSize platform size)
    (clear : ∀ block ∈ memory.blocks,
      Block.Disjoint ⟨fresh, memory.realLength platform size⟩ block)
    (taken : Popped platform memory fresh
      (MemoryPool.realAllocSize platform size - platform.sizeofMemAllocInfo) header popped) :
    Placed platform popped [] ∧ ⟨header, memory.realLength platform size⟩ ∈ popped.blocks ∧
      ∀ index, header ∉ (popped.pools index).mFreeList := by
  rcases taken.apart stocked.placed (stocked.realLength_pos positive) clear with
    ⟨placed, blockMem, _, notFree⟩
  exact ⟨placed, blockMem, notFree⟩

/-- An allocated block comes into use. -/
theorem allocate (stocked : Stocked platform memory used) {ptr : ℕ}
    (clear : ∀ block ∈ memory.blocks,
      Block.Disjoint ⟨fresh, memory.realLength platform size⟩ block)
    (allocated : memory.allocate platform fresh size = .ok (ptr, after)) :
    Stocked platform after (MemoryPool.detachMemAllocInfo platform ptr :: used) := by
  have positive := stocked.realAllocSize_pos allocated
  rcases stocked.exists_allocate fresh positive with ⟨header, popped, taken, result⟩
  cases result.symm.trans allocated
  have same := taken.sameSizes
  rcases stocked.popped_apart positive clear taken with ⟨placed, blockMem, notFree⟩
  rw [MemoryPool.detachMemAllocInfo_add]
  refine ⟨placed.setHeader _ _, ⟨fun _ nothing => absurd nothing List.not_mem_nil, ?_⟩, ?_, ?_, ?_⟩
  · intro index other otherMem
    have ne : other ≠ header := by
      rintro rfl
      exact notFree index otherMem
    rw [MemoryPool.headers_setHeader_of_ne ne, taken.headers_eq]
    exact stocked.labelled.free index other (taken.list_subset index otherMem)
  · intro index
    exact (same.sizes index).trans_le (stocked.small index)
  · exact (congrFun same.table 0).trans stocked.noPool
  · intro other otherMem
    by_cases here : other = header
    · subst here
      refine ⟨MemoryPool.realAllocSize platform size - platform.sizeofMemAllocInfo, by omega, ?_,
        ?_⟩
      · rw [MemoryPool.headers_setHeader_self]
        exact (Int.sub_add_cancel _ _).symm
      · rwa [MemoryPool.realLength, ← same.blockLength] at blockMem
    · have earlier := (List.mem_cons.mp otherMem).resolve_left here
      rcases stocked.inUse other earlier with ⟨otherSize, otherPos, label, otherBlock⟩
      refine ⟨otherSize, otherPos, ?_, ?_⟩
      · rw [MemoryPool.headers_setHeader_of_ne here, taken.headers_eq]
        exact label
      · rw [← same.blockLength] at otherBlock
        exact taken.blocks_subset otherBlock

/-- A deallocated block goes out of use. -/
theorem deallocate (stocked : Stocked platform memory used) (inUse : header ∈ used)
    (deallocated : memory.deallocate platform (header + platform.sizeofMemAllocInfo) extraInfo =
      .ok after) :
    Stocked platform after (used.filter (· ≠ header)) := by
  rcases stocked.inUse header inUse with ⟨size, positive, label, blockMem⟩
  rcases @MemoryPool.exists_deallocate_of_label _ _ _ _ extraInfo stocked.placed.covering
    positive label with ⟨_, given, result⟩
  cases result.symm.trans deallocated
  have notFree := stocked.notFree inUse
  have placed := stocked.placed.setHeader header ⟨0, extraInfo⟩
  have same := given.sameSizes
  refine ⟨?_, ⟨fun _ nothing => absurd nothing List.not_mem_nil, ?_⟩, ?_, ?_, ?_⟩
  · generalize origin_eq : memory.origin platform size = origin at given
    cases given with
    | large => exact placed.alignedFree List.not_mem_nil notFree
    | pushed index =>
        rw [MemoryPool.blockLength, origin_eq] at blockMem
        exact placed.push blockMem List.not_mem_nil notFree
  · intro index other otherMem
    rw [given.headers_eq]
    by_cases here : other = header
    · rw [here, MemoryPool.headers_setHeader_self]
    · rw [MemoryPool.headers_setHeader_of_ne here]
      apply stocked.labelled.free index
      exact ((given.mem_list index other).1 otherMem).resolve_left here
  · intro index
    exact (same.sizes index).trans_le (stocked.small index)
  · exact (congrFun same.table 0).trans stocked.noPool
  · intro other otherMem
    rcases List.mem_filter.mp otherMem with ⟨still, differs⟩
    have ne : other ≠ header := of_decide_eq_true differs
    rcases stocked.inUse other still with ⟨otherSize, otherPos, otherLabel, otherBlock⟩
    refine ⟨otherSize, otherPos, ?_, ?_⟩
    · rw [given.headers_eq, MemoryPool.headers_setHeader_of_ne ne]
      exact otherLabel
    · rw [same.blockLength]
      exact given.mem_blocks otherBlock ne

end Stocked

/-- Every reachable memory pool is stocked for what is in use. -/
theorem stocked_of_reachable {shared : SharedPool}
    (reachable : (sharing platform).Reachable shared) :
    Stocked platform shared.memory shared.used := by
  apply reachable.invariant
  · rintro first ⟨headers, memory, constructed, rfl⟩
    have invariant : MemoryInvariant platform ⟨memory, []⟩ :=
      .initially ⟨headers, memory, constructed, rfl⟩
    rcases MemoryPool.small_construct constructed with ⟨small, noPool⟩
    refine ⟨invariant.placed, invariant.labelled, small, noPool, ?_⟩
    intro header inUse
    cases inUse
  · intro before action after _ stocked step
    cases step with
    | allocate clear allocated => exact stocked.allocate clear allocated
    | deallocate inUse deallocated => exact stocked.deallocate inUse deallocated

/-! ## Three conversions -/

theorem Platform.two_pow_dvd (platform : Platform) :
    (2 ^ 32 : ℤ) ∣ 2 ^ platform.sizeBits := by
  cases platform <;> decide

theorem Platform.sizeofMemAllocInfo_pos (platform : Platform) :
    0 < platform.sizeofMemAllocInfo := by
  cases platform <;> decide

namespace STLAllocator

/-- What is left of the exact number of bytes. -/
theorem realAllocSize_size (platform : Platform) (sizeofT n : ℕ) :
    MemoryPool.realAllocSize platform (STLAllocator.size platform sizeofT n) =
      Word.wrap32 (n * sizeofT + platform.sizeofMemAllocInfo : ℕ) := by
  have product : Word.wrap32 n * sizeofT % 2 ^ platform.sizeBits % 2 ^ 32 =
      n * sizeofT % 2 ^ 32 := by
    rw [Int.emod_emod_of_dvd _ platform.two_pow_dvd, Int.mul_emod, Word.wrap32_emod,
      ← Int.mul_emod]
  have asked : STLAllocator.size platform sizeofT n % 2 ^ 32 = n * sizeofT % 2 ^ 32 :=
    (Word.wrap32_emod _).trans product
  rw [Int.natCast_add, Int.natCast_mul]
  apply Word.wrap32_congr
  rw [Int.add_emod, asked, ← Int.add_emod]

/-- Exact for all requests that fit into an `int` together with the header. -/
theorem realAllocSize_eq (fits : n * sizeofT + platform.sizeofMemAllocInfo < 2 ^ 31) :
    MemoryPool.realAllocSize platform (STLAllocator.size platform sizeofT n) =
      (n * sizeofT + platform.sizeofMemAllocInfo : ℕ) := by
  rw [realAllocSize_size]
  exact Word.wrap32_eq (by omega) (by omega)

end STLAllocator

/-- Blocks are known by their addresses. -/
theorem Placed.block_eq {live : List Allocation} (placed : Placed platform memory live)
    {first second : Block} (firstMem : first ∈ memory.blocks) (secondMem : second ∈ memory.blocks)
    (same : first.address = second.address) : first = second := by
  by_contra ne
  have apart : first.Disjoint second := placed.apart.forall firstMem secondMem ne
  have firstPos := placed.nonempty first firstMem
  have secondPos := placed.nonempty second secondMem
  rw [Block.Disjoint] at apart
  omega

/-- No block is longer than an `int` can say. -/
theorem Stocked.realLength_lt (stocked : Stocked platform memory used) (size : ℤ) :
    memory.realLength platform size < 2 ^ 31 := by
  rw [MemoryPool.realLength, MemoryPool.blockLength]
  split
  · rename_i index _
    exact (stocked.small index).trans_lt (by decide)
  · have upper := (Word.wrap32_mem (size + platform.sizeofMemAllocInfo)).2
    rw [Int.sub_add_cancel, MemoryPool.realAllocSize]
    omega

namespace STLAllocator

/-- A block in use can be given back. -/
theorem exists_deallocate {shared : SharedPool} (reachable : (sharing platform).Reachable shared)
    (inUse : header ∈ shared.used) :
    ∃ after, deallocate platform (header + platform.sizeofMemAllocInfo) shared.memory =
      .ok after := by
  have stocked := stocked_of_reachable reachable
  rcases stocked.inUse header inUse with ⟨_, positive, label, _⟩
  rcases MemoryPool.exists_deallocate_of_label stocked.placed.covering positive label with
    ⟨after, _, result⟩
  exact ⟨after, result⟩

end STLAllocator

end Gsp.Homework4
