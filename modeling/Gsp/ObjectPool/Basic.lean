import Gsp.Lib.Linked
import Gsp.Lib.Machine
import Gsp.Lib.Word

/-!
# The object pool

`operator new` and `operator delete` of the `ObjectPool.h` of two homeworks, on
one flat memory of bytes. Addresses are numbers and null is 0; `new uint8_t[]`
is a chunk whose address and raw contents are given from outside. The class
lock makes each operator one step.

`mTotalAllocCount` and `mCurrentUseCount` are of type `int`, and wrap around.
-/

namespace Gsp

/-- A class whose objects are pooled, and the size of a pointer. -/
structure ObjectType where
  sizeof : ℕ
  allocCount : ℕ
  pointerSize : ℕ
  /-- A link fits into an object. -/
  pointerSize_le : pointerSize ≤ sizeof
  pointerSize_pos : 0 < pointerSize
  allocCount_pos : 1 ≤ allocCount

/-- What one `new uint8_t[]` returns. -/
structure Chunk where
  base : ℕ
  raw : List UInt8

/-- The statics of the class, the memory, and the chunks so far, latest first. -/
structure ObjectPool where
  memory : ℕ → UInt8
  mFreeList : ℕ
  mTotalAllocCount : ℤ
  mCurrentUseCount : ℤ
  chunks : List Chunk

variable (type : ObjectType)

/-- `sizeof(TOBJECT)*ALLOC_COUNT`. -/
def ObjectType.chunkSize : ℕ := type.sizeof * type.allocCount

namespace ObjectPool

/-- The pool before its first use. -/
def initial (memory : ℕ → UInt8) : ObjectPool := ⟨memory, 0, 0, 0, []⟩

/-- `mFreeList = new uint8_t[sizeof(TOBJECT)*ALLOC_COUNT]`. -/
def newArray (chunk : Chunk) (pool : ObjectPool) : ObjectPool :=
  { pool with
    memory := Region.write pool.memory chunk.base chunk.raw
    mFreeList := chunk.base
    chunks := chunk :: pool.chunks }

/-- The `for` loop of `operator new`, with the final `ppCurr`. -/
def threadSlots : (count pNext ppCurr : ℕ) → (ℕ → UInt8) → (ℕ → UInt8) × ℕ
  | 0, _, ppCurr, memory => (memory, ppCurr)
  | count + 1, pNext, ppCurr, memory =>
      let pNext := pNext + type.sizeof
      threadSlots count pNext pNext (Pointer.store type.pointerSize memory ppCurr pNext)

/-- The end of `operator new`. -/
def takeFirst (pool : ObjectPool) : ℕ × ObjectPool :=
  let pAvailable := pool.mFreeList
  (pAvailable,
    { pool with
      mFreeList := Pointer.load type.pointerSize pool.memory pAvailable
      mCurrentUseCount := Word.wrap32 (pool.mCurrentUseCount + 1) })

/-- `operator delete`, unless its assertion fails. -/
def operatorDelete (obj : ℕ) (pool : ObjectPool) : Option ObjectPool :=
  if 0 < pool.mCurrentUseCount then
    some
      { pool with
        mCurrentUseCount := Word.wrap32 (pool.mCurrentUseCount - 1)
        memory := Pointer.store type.pointerSize pool.memory obj pool.mFreeList
        mFreeList := obj }
  else none

end ObjectPool

namespace Homework3

/-- `operator new`. -/
def operatorNew (chunk : Chunk) (pool : ObjectPool) : ℕ × ObjectPool :=
  if pool.mFreeList = 0 then
    let pool := pool.newArray chunk
    let (memory, _) :=
      ObjectPool.threadSlots type (type.allocCount - 1) pool.mFreeList pool.mFreeList pool.memory
    { pool with
      memory := memory
      mTotalAllocCount := Word.wrap32 (pool.mTotalAllocCount + type.allocCount) }.takeFirst type
  else pool.takeFirst type

end Homework3

namespace Homework4

/-- As before, with null in the last slot. -/
def operatorNew (chunk : Chunk) (pool : ObjectPool) : ℕ × ObjectPool :=
  if pool.mFreeList = 0 then
    let pool := pool.newArray chunk
    let (memory, ppCurr) :=
      ObjectPool.threadSlots type (type.allocCount - 1) pool.mFreeList pool.mFreeList pool.memory
    { pool with
      memory := Pointer.store type.pointerSize memory ppCurr 0
      mTotalAllocCount := Word.wrap32 (pool.mTotalAllocCount + type.allocCount) }.takeFirst type
  else pool.takeFirst type

end Homework4

/-! ## Users of the pool -/

/-- The chunk number and slot number of an address in one of the chunks. -/
def locate (address : ℕ) : List Chunk → Option (ℕ × ℕ)
  | [] => none
  | chunk :: earlier =>
      if chunk.base ≤ address ∧ address < chunk.base + type.chunkSize ∧
          (address - chunk.base) % type.sizeof = 0 then
        some (earlier.length, (address - chunk.base) / type.sizeof)
      else locate address earlier

/-- A new chunk lies in the address space, clear of null and of earlier chunks. -/
structure Chunk.Fresh (chunk : Chunk) (chunks : List Chunk) : Prop where
  length_raw : chunk.raw.length = type.chunkSize
  base_pos : 0 < chunk.base
  inside : chunk.base + type.chunkSize ≤ 256 ^ type.pointerSize
  apart : ∀ earlier ∈ chunks, chunk.base + type.chunkSize ≤ earlier.base ∨
    earlier.base + type.chunkSize ≤ chunk.base

/-- The pool with the objects in use, latest first, and what `operator new` has
returned so far. -/
structure PoolUser where
  pool : ObjectPool
  live : List ℕ
  results : List (Option (ℕ × ℕ))

/-- Objects are named by their position among those in use. -/
inductive PoolAction where
  | operatorNew (chunk : Chunk)
  | operatorDelete (position : ℕ)
  | write (position offset : ℕ) (bytes : List UInt8)

/-- A user of `operator new`, which gets the chunk if it asks for one. -/
abbrev OperatorNew : Type := Chunk → ObjectPool → ℕ × ObjectPool

namespace PoolUser

/-- Nothing has been allocated. -/
def initial (memory : ℕ → UInt8) : PoolUser := ⟨.initial memory, [], []⟩

/-- The user has got one more object. -/
def get (operatorNew : OperatorNew) (chunk : Chunk) (user : PoolUser) : PoolUser :=
  let (obj, pool) := operatorNew chunk user.pool
  ⟨pool, obj :: user.live, user.results ++ [locate type obj pool.chunks]⟩

/-- No step is made on an object that is not in use, or outside of an object. -/
def step (operatorNew : OperatorNew) (user : PoolUser) : PoolAction → Option PoolUser
  | .operatorNew chunk => some (user.get type operatorNew chunk)
  | .operatorDelete position =>
      match user.live[position]? with
      | some obj =>
          (user.pool.operatorDelete type obj).map fun pool =>
            ⟨pool, user.live.eraseIdx position, user.results⟩
      | none => none
  | .write position offset bytes =>
      match user.live[position]? with
      | some obj =>
          if offset + bytes.length ≤ type.sizeof then
            some { user with
              pool := { user.pool with
                memory := Region.write user.pool.memory (obj + offset) bytes } }
          else none
      | none => none

variable {type} {operatorNew : OperatorNew} {user later : PoolUser} {position : ℕ}

theorem step_operatorDelete_eq_some :
    user.step type operatorNew (.operatorDelete position) = some later ↔
      ∃ obj pool, user.live[position]? = some obj ∧
        user.pool.operatorDelete type obj = some pool ∧
        ⟨pool, user.live.eraseIdx position, user.results⟩ = later := by
  simp only [step]
  split
  · next obj inUse =>
      simp only [inUse, Option.map_eq_some_iff, Option.some.injEq, exists_and_left,
        exists_eq_left']
  · next unused => simp only [unused, reduceCtorEq, false_and, exists_false]

theorem step_write_eq_some {offset : ℕ} {bytes : List UInt8} :
    user.step type operatorNew (.write position offset bytes) = some later ↔
      ∃ obj, user.live[position]? = some obj ∧ offset + bytes.length ≤ type.sizeof ∧
        { user with
          pool := { user.pool with
            memory := Region.write user.pool.memory (obj + offset) bytes } } = later := by
  simp only [step]
  split
  · next obj inUse =>
      simp only [inUse, Option.ite_none_right_eq_some, Option.some.injEq, exists_eq_left']
  · next unused => simp only [unused, reduceCtorEq, false_and, exists_false]

end PoolUser

/-- What `new uint8_t[]` is assumed to return where it is called. -/
def PoolAction.Fresh (action : PoolAction) (chunks : List Chunk) : Prop :=
  match action with
  | .operatorNew chunk => chunk.Fresh type chunks
  | _ => True

/-- The pool of the fourth homework and its users. -/
def pooling : Machine PoolUser PoolAction where
  Initial user := ∃ memory, user = .initial memory
  Step before action after :=
    (before.pool.mFreeList = 0 → action.Fresh type before.pool.chunks) ∧
      before.step type (Homework4.operatorNew type) action = some after

end Gsp
