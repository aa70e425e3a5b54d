import Mathlib.Data.List.Range
import Mathlib.Logic.Function.Basic
import Gsp.Lib.Machine
import Gsp.Lib.Tally
import Gsp.Lib.Word

/-!
# The memory pool

`MemoryPool.h` and `MemoryPool.cpp`. A block is known by its address; its header
is kept apart from the bytes behind it, which the pool never touches. What
`_aligned_malloc` returns is given from outside, and an `SLIST` is a stack.

`mAllocCount` is on plain integers: it counts blocks in memory, and so many that a
`long` overflows take 64 GiB (`mAllocCount_lt_of_reachable`).
-/

namespace Gsp.Homework4

/-- The two builds of the solution. -/
inductive Platform where
  | win32
  | x64
deriving DecidableEq

/-- `MEMORY_ALLOCATION_ALIGNMENT`. -/
def Platform.alignment : Platform → ℕ
  | .win32 => 8
  | .x64 => 16

/-- `sizeof(MemAllocInfo)`: an `SLIST_ENTRY` and two `long`s, aligned. -/
def Platform.sizeofMemAllocInfo : Platform → ℕ
  | .win32 => 16
  | .x64 => 32

/-- `MAX_ALLOC_SIZE`. -/
def maxAllocSize : ℕ := 4096

/-- The header in front of a block. -/
structure MemAllocInfo where
  mAllocSize : ℤ
  mExtraInfo : ℤ

/-- The list holds the addresses of its blocks, the top first. -/
structure SmallSizeMemoryPool where
  mFreeList : List ℕ
  mAllocSize : ℕ
  mAllocCount : ℤ

/-- What `_aligned_malloc` has returned. -/
structure Block where
  address : ℕ
  length : ℕ
deriving DecidableEq

/-- Two blocks share no byte. -/
def Block.Disjoint (first second : Block) : Prop :=
  first.address + first.length ≤ second.address ∨ second.address + second.length ≤ first.address

/-- The table holds pool numbers; beside it the pools, the headers in memory, and
the blocks that `_aligned_malloc` has returned and `_aligned_free` not got back. -/
structure MemoryPool where
  mSmallSizeMemoryPoolTable : ℕ → Option ℕ
  pools : ℕ → SmallSizeMemoryPool
  headers : ℕ → MemAllocInfo
  blocks : List Block

/-- Why there is no result. -/
inductive Fault where
  | crashAssert
  | nullPool
  | outOfTable

/-! ## Construction -/

/-- The values of `i` in a `for` loop from `first`, below `limit`, in such strides. -/
def strides (first limit stride : ℕ) : List ℕ :=
  List.range' first ((limit - first + stride - 1) / stride) stride

/-- The local state of the constructor: the next pool number, and `recent`. -/
structure Constructing where
  table : ℕ → Option ℕ
  pools : ℕ → SmallSizeMemoryPool
  created : ℕ
  recent : ℕ

variable (platform : Platform)

/-- `new SmallSizeMemoryPool(i)`, unless its assertion fails, and the inner loop. -/
def Constructing.addPool (state : Constructing) (i : ℕ) : Option Constructing :=
  if platform.alignment < i then
    some
      { table := (List.range' (state.recent + 1) (i - state.recent)).foldl
          (fun table j => Function.update table j (some state.created)) state.table
        pools := Function.update state.pools state.created ⟨[], i, 0⟩
        created := state.created + 1
        recent := i }
  else none

/-- The values of `i` in the three loops. -/
def poolSizes : List ℕ :=
  strides 32 1024 32 ++ strides 1024 2048 128 ++ strides 2048 (4096 + 1) 256

/-- `MemoryPool::MemoryPool`, on raw headers. -/
def MemoryPool.construct (headers : ℕ → MemAllocInfo) : Option MemoryPool :=
  (poolSizes.foldlM (Constructing.addPool platform)
      ⟨fun _ => none, fun _ => ⟨[], 0, 0⟩, 0, 0⟩).map fun state =>
    ⟨state.table, state.pools, headers, []⟩

namespace MemoryPool

/-! ## Allocation -/

/-- The memory with another state of one pool. -/
def setPool (index : ℕ) (pool : SmallSizeMemoryPool) (memory : MemoryPool) : MemoryPool :=
  { memory with pools := Function.update memory.pools index pool }

@[simp]
theorem pools_setPool_self (index : ℕ) (pool : SmallSizeMemoryPool) (memory : MemoryPool) :
    (memory.setPool index pool).pools index = pool :=
  Function.update_self ..

theorem pools_setPool_of_ne {index other : ℕ} (ne : other ≠ index) (pool : SmallSizeMemoryPool)
    (memory : MemoryPool) : (memory.setPool index pool).pools other = memory.pools other :=
  Function.update_of_ne ne ..

/-- The lists stay when the pool keeps its own. -/
theorem mFreeList_setPool {index : ℕ} {pool : SmallSizeMemoryPool} {memory : MemoryPool}
    (same : pool.mFreeList = (memory.pools index).mFreeList) (other : ℕ) :
    ((memory.setPool index pool).pools other).mFreeList = (memory.pools other).mFreeList := by
  by_cases here : other = index
  · subst here
    rw [pools_setPool_self, same]
  · rw [pools_setPool_of_ne here]

theorem mAllocCount_setPool {index : ℕ} {pool : SmallSizeMemoryPool} {memory : MemoryPool}
    {change : ℤ} (counts : pool.mAllocCount = (memory.pools index).mAllocCount + change)
    (other : ℕ) : ((memory.setPool index pool).pools other).mAllocCount =
      (memory.pools other).mAllocCount + if index = other then change else 0 := by
  by_cases here : index = other
  · subst here
    rw [pools_setPool_self, counts, if_pos rfl]
  · rw [pools_setPool_of_ne (Ne.symm here), if_neg here, Int.add_zero]

/-- The memory with another header. -/
def setHeader (header : ℕ) (info : MemAllocInfo) (memory : MemoryPool) : MemoryPool :=
  { memory with headers := Function.update memory.headers header info }

@[simp]
theorem headers_setHeader_self (header : ℕ) (info : MemAllocInfo) (memory : MemoryPool) :
    (memory.setHeader header info).headers header = info :=
  Function.update_self ..

theorem headers_setHeader_of_ne {header other : ℕ} (ne : other ≠ header) (info : MemAllocInfo)
    (memory : MemoryPool) : (memory.setHeader header info).headers other = memory.headers other :=
  Function.update_of_ne ne ..

/-- `_aligned_malloc`, which returns the given address. -/
def alignedMalloc (address length : ℕ) (memory : MemoryPool) : MemoryPool :=
  { memory with blocks := ⟨address, length⟩ :: memory.blocks }

/-- `_aligned_free`. -/
def alignedFree (address : ℕ) (memory : MemoryPool) : MemoryPool :=
  { memory with blocks := memory.blocks.filter (·.address ≠ address) }

/-- `SmallSizeMemoryPool::Pop` of a pool. -/
def pop (index fresh : ℕ) (memory : MemoryPool) : Except Fault (ℕ × MemoryPool) :=
  let pool := memory.pools index
  match pool.mFreeList with
  | [] =>
      .ok (fresh, (memory.alignedMalloc fresh pool.mAllocSize).setPool index
        { pool with mAllocCount := pool.mAllocCount + 1 })
  | mem :: rest =>
      if (memory.headers mem).mAllocSize = 0 then
        .ok (mem, memory.setPool index
          { pool with mFreeList := rest, mAllocCount := pool.mAllocCount + 1 })
      else .error .crashAssert

/-- `SmallSizeMemoryPool::Push` of a pool. -/
def push (index header : ℕ) (memory : MemoryPool) : MemoryPool :=
  let pool := memory.pools index
  memory.setPool index
    { pool with
      mFreeList := header :: pool.mFreeList
      mAllocCount := pool.mAllocCount - 1 }

/-- `int realAllocSize = size + sizeof(MemAllocInfo)`. -/
def realAllocSize (size : ℤ) : ℤ := Word.wrap32 (size + platform.sizeofMemAllocInfo)

/-- `AttachMemAllocInfo`. -/
def attachMemAllocInfo (header : ℕ) (size : ℤ) (memory : MemoryPool) : ℕ × MemoryPool :=
  (header + platform.sizeofMemAllocInfo, memory.setHeader header ⟨size, -1⟩)

/-- `DetachMemAllocInfo`. -/
def detachMemAllocInfo (ptr : ℕ) : ℕ := ptr - platform.sizeofMemAllocInfo

/-- `mSmallSizeMemoryPoolTable[size]`, which has to point to a pool. -/
def lookup (size : ℤ) (memory : MemoryPool) : Except Fault ℕ :=
  if 0 ≤ size ∧ size ≤ maxAllocSize then
    match memory.mSmallSizeMemoryPoolTable size.toNat with
    | some index => .ok index
    | none => .error .nullPool
  else .error .outOfTable

/-- `Allocate`. -/
def allocate (fresh : ℕ) (size : ℤ) (memory : MemoryPool) : Except Fault (ℕ × MemoryPool) :=
  let realAllocSize := realAllocSize platform size
  if (maxAllocSize : ℤ) < realAllocSize then
    .ok ((memory.alignedMalloc fresh realAllocSize.toNat).attachMemAllocInfo platform fresh
      realAllocSize)
  else do
    let index ← memory.lookup realAllocSize
    let (header, memory) ← memory.pop index fresh
    .ok (memory.attachMemAllocInfo platform header realAllocSize)

/-- A fault keeps the state in which it happens. -/
def deallocate (ptr : ℕ) (extraInfo : ℤ) (memory : MemoryPool) :
    Except (Fault × MemoryPool) MemoryPool :=
  let header := detachMemAllocInfo platform ptr
  let realAllocSize := (memory.headers header).mAllocSize
  let memory := memory.setHeader header ⟨0, extraInfo⟩
  if 0 < realAllocSize then
    if (maxAllocSize : ℤ) < realAllocSize then .ok (memory.alignedFree header)
    else
      match memory.lookup realAllocSize with
      | .ok index => .ok (memory.push index header)
      | .error fault => .error (fault, memory)
  else .error (.crashAssert, memory)

end MemoryPool

/-! ## The table -/

namespace Constructing

variable {platform} {state after : Constructing}

/-- The entries filled so far lead to pools that are large enough. -/
structure Built (state : Constructing) : Prop where
  covers : ∀ size, 1 ≤ size → size ≤ state.recent →
    ∃ index < state.created, state.table size = some index ∧
      size ≤ (state.pools index).mAllocSize
  unused : ∀ index, (state.pools index).mFreeList = [] ∧ (state.pools index).mAllocCount = 0

/-- The inner loop stores the new pool from `recent + 1` on. -/
theorem foldl_update (table : ℕ → Option ℕ) (index : Option ℕ) (recent count size : ℕ) :
    (List.range' (recent + 1) count).foldl (fun table j => Function.update table j index) table
        size =
      if recent < size ∧ size ≤ recent + count then index else table size := by
  induction count with
  | zero =>
      rw [if_neg (by omega)]
      rfl
  | succ count ih =>
      rw [List.range'_concat, List.foldl_append, List.foldl_cons, List.foldl_nil]
      by_cases isLast : size = recent + 1 + 1 * count
      · rw [isLast, Function.update_self, if_pos (by omega)]
      · rw [Function.update_of_ne isLast, ih]
        by_cases inside : recent < size ∧ size ≤ recent + count
        · rw [if_pos inside, if_pos (by omega)]
        · rw [if_neg inside, if_neg (by omega)]

theorem addPool_built (built : state.Built) {i : ℕ}
    (added : state.addPool platform i = some after) :
    after.Built ∧ after.recent = i := by
  rw [addPool] at added
  split at added
  · cases added
    refine ⟨⟨?_, ?_⟩, rfl⟩
    · intro size positive small
      change size ≤ i at small
      simp only [foldl_update]
      by_cases new : state.recent < size
      · refine ⟨state.created, Nat.lt_succ_self _, ?_, ?_⟩
        · rw [if_pos]
          omega
        · rw [Function.update_self]
          exact small
      · rcases built.covers size positive (by omega) with ⟨index, less, found, large⟩
        refine ⟨index, by omega, ?_, ?_⟩
        · rw [if_neg (by omega)]
          exact found
        · rw [Function.update_of_ne (by omega)]
          exact large
    · intro index
      by_cases new : index = state.created
      · subst new
        simp
      · simp only [Function.update_of_ne new]
        exact built.unused index
  · cases added

theorem foldlM_built {sizes : List ℕ} (built : state.Built)
    (large : ∀ i ∈ sizes, platform.alignment < i) :
    ∃ after, sizes.foldlM (Constructing.addPool platform) state = some after ∧ after.Built ∧
      after.recent = sizes.getLast?.getD state.recent := by
  induction sizes generalizing state with
  | nil => exact ⟨state, rfl, built, rfl⟩
  | cons i sizes ih =>
      have added : state.addPool platform i = some _ := if_pos (large i List.mem_cons_self)
      rcases addPool_built built added with ⟨nowBuilt, recent_eq⟩
      rcases ih nowBuilt (fun i iMem => large i (List.mem_cons_of_mem _ iMem)) with
        ⟨after, folded, afterBuilt, last_eq⟩
      refine ⟨after, ?_, afterBuilt, ?_⟩
      · rw [List.foldlM_cons, added]
        exact folded
      · rw [last_eq, recent_eq, List.getLast?_cons]
        rfl

end Constructing

/-- The table leads from each size to a pool of at least that size. -/
def MemoryPool.Covering (memory : MemoryPool) : Prop :=
  ∀ size, 1 ≤ size → size ≤ maxAllocSize → ∃ index,
    memory.mSmallSizeMemoryPoolTable size = some index ∧ size ≤ (memory.pools index).mAllocSize

/-- The constructor passes its assertions and covers the whole table, the seams of
its three loops included. -/
theorem MemoryPool.exists_construct (headers : ℕ → MemAllocInfo) :
    ∃ memory, MemoryPool.construct platform headers = some memory ∧ memory.Covering ∧
      memory.blocks = [] ∧
      ∀ index, (memory.pools index).mFreeList = [] ∧ (memory.pools index).mAllocCount = 0 := by
  have large : ∀ i ∈ poolSizes, platform.alignment < i := by
    have least : ∀ i ∈ poolSizes, 16 < i := by decide
    intro i iMem
    have alignment_le : platform.alignment ≤ 16 := by cases platform <;> decide
    exact alignment_le.trans_lt (least i iMem)
  have start : Constructing.Built ⟨fun _ => none, fun _ => ⟨[], 0, 0⟩, 0, 0⟩ := by
    refine ⟨?_, fun _ => ⟨rfl, rfl⟩⟩
    intro size positive small
    exact absurd (positive.trans small) (by decide)
  have last_eq : poolSizes.getLast? = some maxAllocSize := by decide
  rcases Constructing.foldlM_built start large with ⟨state, folded, built, recent_eq⟩
  rw [last_eq, Option.getD_some] at recent_eq
  refine ⟨_, by rw [construct, folded]; rfl, ?_, rfl, built.unused⟩
  intro size positive small
  rw [← recent_eq] at small
  rcases built.covers size positive small with ⟨index, _, found, enough⟩
  exact ⟨index, found, enough⟩

end Gsp.Homework4
