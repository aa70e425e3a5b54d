import Mathlib.Data.List.Flatten
import Mathlib.Data.List.Perm.Basic
import Gsp.ObjectPool.Basic

/-!
# The free list of a pool

The free slots are linked through their own storage. Free slots and objects in
use together are the slots of all chunks, so that no link word is part of an
object in use and each operator keeps the list.
-/

namespace Gsp

variable {type : ObjectType}

/-! ## Slots -/

namespace ObjectType

/-- The slots from an address on. -/
def slots (type : ObjectType) : (base count : ℕ) → List ℕ
  | _, 0 => []
  | base, count + 1 => base :: slots type (base + type.sizeof) count

/-- Two objects at these addresses do not overlap. -/
def Apart (type : ObjectType) (first second : ℕ) : Prop :=
  first + type.sizeof ≤ second ∨ second + type.sizeof ≤ first

theorem Apart.symm {first second : ℕ} (apart : type.Apart first second) :
    type.Apart second first := Or.symm apart

theorem sizeof_pos (type : ObjectType) : 0 < type.sizeof :=
  type.pointerSize_pos.trans_le type.pointerSize_le

theorem slots_succ (base count : ℕ) :
    type.slots base (count + 1) = type.slots base count ++ [base + count * type.sizeof] := by
  induction count generalizing base with
  | zero => simp [slots]
  | succ count ih =>
      rw [slots, ih, slots, List.cons_append]
      simp [Nat.add_mul, Nat.add_assoc, Nat.add_comm]

theorem mem_slots {base count slot : ℕ} :
    slot ∈ type.slots base count ↔ ∃ index < count, slot = base + index * type.sizeof := by
  induction count with
  | zero => simp [slots]
  | succ count ih =>
      rw [slots_succ, List.mem_append, ih, List.mem_singleton]
      constructor
      · rintro (⟨index, less, rfl⟩ | rfl)
        · exact ⟨index, by omega, rfl⟩
        · exact ⟨count, by omega, rfl⟩
      · rintro ⟨index, less, rfl⟩
        by_cases isLast : index = count
        · subst isLast
          exact Or.inr rfl
        · exact Or.inl ⟨index, by omega, rfl⟩

theorem slots_inside {base count slot : ℕ} (slotMem : slot ∈ type.slots base count) :
    base ≤ slot ∧ slot + type.sizeof ≤ base + type.sizeof * count := by
  rcases mem_slots.mp slotMem with ⟨index, less, rfl⟩
  have product := Nat.mul_le_mul_right type.sizeof (Nat.succ_le_of_lt less)
  rw [Nat.succ_mul, Nat.mul_comm count] at product
  omega

theorem pairwise_slots (base count : ℕ) : (type.slots base count).Pairwise type.Apart := by
  induction count generalizing base with
  | zero => exact .nil
  | succ count ih =>
      refine .cons ?_ (ih _)
      intro later laterMem
      exact Or.inl (slots_inside laterMem).1

@[simp]
theorem length_slots (base count : ℕ) : (type.slots base count).length = count := by
  induction count generalizing base with
  | zero => rfl
  | succ count ih => rw [slots, List.length_cons, ih]

end ObjectType

/-- The slots of a chunk. -/
def Chunk.slots (type : ObjectType) (chunk : Chunk) : List ℕ :=
  type.slots chunk.base type.allocCount

/-- The link that the raw memory of a chunk happens to hold in its last slot. -/
def Chunk.lastLink (type : ObjectType) (chunk : Chunk) : ℕ :=
  Pointer.decode (chunk.raw.drop ((type.allocCount - 1) * type.sizeof) |>.take type.pointerSize)

/-- The slots of all chunks. -/
def allSlots (type : ObjectType) (chunks : List Chunk) : List ℕ :=
  chunks.flatMap (Chunk.slots type)

theorem Chunk.slots_eq (chunk : Chunk) : chunk.slots type =
    chunk.base :: type.slots (chunk.base + type.sizeof) (type.allocCount - 1) := by
  have count_eq : type.allocCount - 1 + 1 = type.allocCount :=
    Nat.sub_add_cancel type.allocCount_pos
  rw [slots, ← count_eq, ObjectType.slots, Nat.add_sub_cancel]

theorem mem_allSlots {chunks : List Chunk} {slot : ℕ} :
    slot ∈ allSlots type chunks ↔
      ∃ chunk ∈ chunks, ∃ index < type.allocCount, slot = chunk.base + index * type.sizeof := by
  simp only [allSlots, List.mem_flatMap, Chunk.slots, ObjectType.mem_slots]

theorem length_allSlots (chunks : List Chunk) :
    (allSlots type chunks).length = chunks.length * type.allocCount := by
  induction chunks with
  | nil => simp [allSlots]
  | cons chunk chunks ih =>
      rw [allSlots, List.flatMap_cons, List.length_append]
      change _ + (allSlots type chunks).length = _
      simp [ih, Chunk.slots, Nat.add_mul, Nat.add_comm]

/-! ## Threading a chunk -/

namespace ObjectPool

/-- The loop links the slots up to the last one, and stores nothing from there on
or before the chunk. -/
theorem threadSlots_spec (count base : ℕ) (memory : ℕ → UInt8)
    (inside : base + type.sizeof * (count + 1) ≤ 256 ^ type.pointerSize) :
    (threadSlots type count base base memory).2 = base + count * type.sizeof ∧
      Linked type.pointerSize (threadSlots type count base base memory).1 base
        (type.slots base count) (base + count * type.sizeof) ∧
      ∀ address, address + type.pointerSize ≤ base ∨ base + count * type.sizeof ≤ address →
        Pointer.load type.pointerSize (threadSlots type count base base memory).1 address =
          Pointer.load type.pointerSize memory address := by
  induction count generalizing base memory with
  | zero => simp [threadSlots, ObjectType.slots, Linked]
  | succ count ih =>
      have sizes := type.pointerSize_le
      have positive := type.sizeof_pos
      have ends : base + type.sizeof + count * type.sizeof = base + (count + 1) * type.sizeof := by
        rw [Nat.add_mul]
        omega
      have smaller : base + type.sizeof + type.sizeof * (count + 1) ≤ 256 ^ type.pointerSize := by
        have product := Nat.mul_add_one type.sizeof (count + 1)
        omega
      rcases ih (base + type.sizeof)
        (Pointer.store type.pointerSize memory base (base + type.sizeof)) smaller with
        ⟨last_eq, linked, untouched⟩
      rw [ends] at last_eq linked untouched
      have linkFits : base + type.sizeof < 256 ^ type.pointerSize := by
        have product := Nat.mul_add_one type.sizeof count
        omega
      refine ⟨last_eq, ⟨rfl, ?_⟩, ?_⟩
      · simp only [threadSlots]
        rw [untouched base (Or.inl (by omega)), Pointer.load_store_self linkFits]
        exact linked
      · intro address outside
        simp only [threadSlots]
        rw [untouched address (by omega)]
        apply Pointer.load_store_of_disjoint
        rw [Nat.add_mul] at outside
        omega

/-! ## What the operators do to the counters -/

section

variable {pool after : ObjectPool} {obj : ℕ}

/-- The assertion of `operator delete`. -/
theorem pos_of_operatorDelete (deleted : pool.operatorDelete type obj = some after) :
    0 < pool.mCurrentUseCount := by
  by_contra unused
  simp only [operatorDelete, if_neg unused, reduceCtorEq] at deleted

theorem current_operatorDelete (deleted : pool.operatorDelete type obj = some after) :
    after.mCurrentUseCount = Word.wrap32 (pool.mCurrentUseCount - 1) := by
  rw [operatorDelete, if_pos (pos_of_operatorDelete deleted)] at deleted
  cases deleted
  rfl

theorem chunks_operatorDelete (deleted : pool.operatorDelete type obj = some after) :
    after.chunks = pool.chunks := by
  rw [operatorDelete, if_pos (pos_of_operatorDelete deleted)] at deleted
  cases deleted
  rfl

end

/-! ## The invariant -/

/-- The free slots are linked up to `last`; with the objects in use they are the
slots of all chunks, which do not overlap. -/
structure Sound (type : ObjectType) (pool : ObjectPool) (live free : List ℕ) (last : ℕ) : Prop where
  linked : Linked type.pointerSize pool.memory pool.mFreeList free last
  perm : (free ++ live).Perm (allSlots type pool.chunks)
  apart : (allSlots type pool.chunks).Pairwise type.Apart
  inside : ∀ slot ∈ allSlots type pool.chunks,
    0 < slot ∧ slot + type.sizeof ≤ 256 ^ type.pointerSize
  total : pool.mTotalAllocCount = Word.wrap32 (allSlots type pool.chunks).length
  current : pool.mCurrentUseCount = Word.wrap32 live.length
  last_lt : last < 256 ^ type.pointerSize

namespace Sound

variable {pool : ObjectPool} {live free rest : List ℕ} {last slot : ℕ}

theorem initial (memory : ℕ → UInt8) : Sound type (.initial memory) [] [] 0 where
  linked := rfl
  perm := .nil
  apart := .nil
  inside _ slotMem := by cases slotMem
  total := Word.wrap32_zero.symm
  current := Word.wrap32_zero.symm
  last_lt := Nat.pow_pos (by decide)

theorem pairwise (sound : Sound type pool live free last) :
    (free ++ live).Pairwise type.Apart :=
  (sound.perm.pairwise_iff ObjectType.Apart.symm).mpr sound.apart

theorem free_inside (sound : Sound type pool live free last) (slotMem : slot ∈ free) :
    0 < slot ∧ slot + type.sizeof ≤ 256 ^ type.pointerSize :=
  sound.inside slot (sound.perm.subset (List.mem_append_left live slotMem))

/-- Free slots are clear of objects in use. -/
theorem apart_live (sound : Sound type pool live free last) {obj : ℕ} (slotMem : slot ∈ free)
    (objMem : obj ∈ live) : type.Apart slot obj :=
  (List.pairwise_append.mp sound.pairwise).2.2 slot slotMem obj objMem

theorem head_lt (sound : Sound type pool live free last) :
    pool.mFreeList < 256 ^ type.pointerSize := by
  cases free with
  | nil =>
      rw [sound.linked]
      exact sound.last_lt
  | cons slot rest =>
      have inside := (sound.free_inside List.mem_cons_self).2
      have positive := type.sizeof_pos
      rw [sound.linked.1]
      omega

theorem head_eq_zero_iff (sound : Sound type pool live free 0) :
    pool.mFreeList = 0 ↔ free = [] := by
  apply sound.linked.head_eq_iff
  intro slot slotMem
  exact (sound.free_inside slotMem).1.ne'

theorem takeFirst (sound : Sound type pool live (slot :: rest) last) :
    (pool.takeFirst type).1 = slot ∧
      Sound type (pool.takeFirst type).2 (slot :: live) rest last := by
  refine ⟨sound.linked.1, ?_, ?_, sound.apart, sound.inside, sound.total, ?_, sound.last_lt⟩
  · simp only [ObjectPool.takeFirst]
    rw [sound.linked.1]
    exact sound.linked.2
  · exact List.perm_middle.trans sound.perm
  · simp only [ObjectPool.takeFirst, sound.current, Word.wrap32_wrap32_add, List.length_cons,
      Nat.cast_add, Nat.cast_one]

/-- A new chunk when the list is used up. -/
theorem grow (sound : Sound type pool live [] last) {chunk : Chunk}
    (fresh : chunk.Fresh type pool.chunks) {memory : ℕ → UInt8} {newLast : ℕ}
    (linked : Linked type.pointerSize memory chunk.base (chunk.slots type) newLast)
    (newLast_lt : newLast < 256 ^ type.pointerSize) :
    Sound type ⟨memory, chunk.base, Word.wrap32 (pool.mTotalAllocCount + type.allocCount),
      pool.mCurrentUseCount, chunk :: pool.chunks⟩ live (chunk.slots type) newLast := by
  have inChunk {slot : ℕ} (slotMem : slot ∈ chunk.slots type) :
      chunk.base ≤ slot ∧ slot + type.sizeof ≤ chunk.base + type.chunkSize :=
    ObjectType.slots_inside slotMem
  refine ⟨linked, ?_, ?_, ?_, ?_, sound.current, newLast_lt⟩
  · exact sound.perm.append_left _
  · refine List.pairwise_append.mpr ⟨ObjectType.pairwise_slots _ _, sound.apart, ?_⟩
    intro new newMem old oldMem
    rcases List.mem_flatMap.mp oldMem with ⟨earlier, earlierMem, inEarlier⟩
    have newInside := inChunk newMem
    have oldInside := ObjectType.slots_inside inEarlier
    change earlier.base ≤ old ∧ old + type.sizeof ≤ earlier.base + type.chunkSize at oldInside
    rcases fresh.apart earlier earlierMem with before | after
    · left
      omega
    · right
      omega
  · intro slot slotMem
    rcases List.mem_append.mp slotMem with new | old
    · have newInside := inChunk new
      have positive := fresh.base_pos
      have bound := fresh.inside
      omega
    · exact sound.inside slot old
  · have slots_eq : (allSlots type (chunk :: pool.chunks)).length =
        (allSlots type pool.chunks).length + type.allocCount := by
      simp only [length_allSlots, List.length_cons, Nat.add_one_mul]
    simp only [sound.total, Word.wrap32_wrap32_add, slots_eq, Nat.cast_add]

theorem delete (sound : Sound type pool live free last) {position obj : ℕ}
    (inUse : live[position]? = some obj) (used : 0 < pool.mCurrentUseCount) :
    ∃ after, pool.operatorDelete type obj = some after ∧
      Sound type after (live.eraseIdx position) (obj :: free) last := by
  rcases List.getElem?_eq_some_iff.mp inUse with ⟨less, obj_eq⟩
  have objMem : obj ∈ live := List.mem_of_getElem? inUse
  have moved : (live.eraseIdx position).length + 1 = live.length := by
    rw [List.length_eraseIdx_of_lt less]
    omega
  refine ⟨_, if_pos used, ?_, ?_, sound.apart, sound.inside, sound.total, ?_, sound.last_lt⟩
  · apply sound.linked.push sound.head_lt
    intro later laterMem
    have apart := sound.apart_live laterMem objMem
    have fits := type.pointerSize_le
    simp only [ObjectType.Apart] at apart
    omega
  · refine List.Perm.trans ?_ sound.perm
    have back := List.getElem_cons_eraseIdx_perm less
    rw [obj_eq] at back
    exact List.perm_middle.symm.trans (back.append_left free)
  · have counted : (live.length : ℤ) - 1 = (live.eraseIdx position).length := by omega
    simp only [sound.current, Word.wrap32_wrap32_sub, counted]

theorem of_delete (sound : Sound type pool live free last) {position obj : ℕ}
    {after : ObjectPool} (inUse : live[position]? = some obj)
    (deleted : pool.operatorDelete type obj = some after) :
    Sound type after (live.eraseIdx position) (obj :: free) last := by
  rcases sound.delete inUse (pos_of_operatorDelete deleted) with ⟨_, same, kept⟩
  rw [deleted] at same
  cases same
  exact kept

theorem write (sound : Sound type pool live free last) {position obj offset : ℕ}
    {bytes : List UInt8} (inUse : live[position]? = some obj)
    (fits : offset + bytes.length ≤ type.sizeof) :
    Sound type { pool with memory := Region.write pool.memory (obj + offset) bytes } live free
      last := by
  refine { sound with linked := sound.linked.write ?_ }
  intro slot slotMem
  have apart := sound.apart_live slotMem (List.mem_of_getElem? inUse)
  have linkFits := type.pointerSize_le
  simp only [ObjectType.Apart] at apart
  omega

end Sound

/-- The chunk threaded by the loop, once its last slot has a link. -/
theorem linked_chunk {chunk : Chunk} {chunks : List Chunk} (fresh : chunk.Fresh type chunks)
    (memory : ℕ → UInt8) :
    (threadSlots type (type.allocCount - 1) chunk.base chunk.base memory).2 =
        chunk.base + (type.allocCount - 1) * type.sizeof ∧
      ∀ threaded link, (∀ slot ∈ type.slots chunk.base (type.allocCount - 1),
          Pointer.load type.pointerSize threaded slot = Pointer.load type.pointerSize
            (threadSlots type (type.allocCount - 1) chunk.base chunk.base memory).1 slot) →
        Pointer.load type.pointerSize threaded
          (chunk.base + (type.allocCount - 1) * type.sizeof) = link →
        Linked type.pointerSize threaded chunk.base (chunk.slots type) link := by
  have count_eq : type.allocCount - 1 + 1 = type.allocCount :=
    Nat.sub_add_cancel type.allocCount_pos
  have inside : chunk.base + type.sizeof * (type.allocCount - 1 + 1) ≤ 256 ^ type.pointerSize := by
    rw [count_eq]
    exact fresh.inside
  rcases threadSlots_spec (type.allocCount - 1) chunk.base memory inside with ⟨last_eq, linked, _⟩
  refine ⟨last_eq, ?_⟩
  intro threaded link same ends
  rw [Chunk.slots, ← count_eq, ObjectType.slots_succ]
  exact (linked.congr same).snoc ends

end ObjectPool

/-! ## The fourth homework -/

namespace Homework4

open ObjectPool

variable {pool : ObjectPool} {live free rest : List ℕ} {slot : ℕ} {chunk : Chunk}

theorem current_operatorNew : (operatorNew type chunk pool).2.mCurrentUseCount =
    Word.wrap32 (pool.mCurrentUseCount + 1) := by
  rw [operatorNew]
  split <;> rfl

theorem operatorNew_of_cons (chunk : Chunk) (sound : Sound type pool live (slot :: rest) 0) :
    (operatorNew type chunk pool).1 = slot ∧
      (operatorNew type chunk pool).2.chunks = pool.chunks ∧
      Sound type (operatorNew type chunk pool).2 (slot :: live) rest 0 := by
  have some : pool.mFreeList ≠ 0 := by
    intro none
    cases sound.head_eq_zero_iff.mp none
  simp only [operatorNew, if_neg some]
  exact ⟨sound.takeFirst.1, rfl, sound.takeFirst.2⟩

/-- All slots are in use: the first slot of a new chunk is taken. -/
theorem operatorNew_of_nil (sound : Sound type pool live [] 0)
    (fresh : chunk.Fresh type pool.chunks) :
    (operatorNew type chunk pool).1 = chunk.base ∧
      (operatorNew type chunk pool).2.chunks = chunk :: pool.chunks ∧
      Sound type (operatorNew type chunk pool).2 (chunk.base :: live)
        (type.slots (chunk.base + type.sizeof) (type.allocCount - 1)) 0 := by
  have used : pool.mFreeList = 0 := sound.linked
  have null_lt : 0 < 256 ^ type.pointerSize := Nat.pow_pos (by decide)
  rcases linked_chunk fresh (Region.write pool.memory chunk.base chunk.raw) with ⟨last_eq, link⟩
  have linked := link
    (Pointer.store type.pointerSize (threadSlots type (type.allocCount - 1) chunk.base chunk.base
      (Region.write pool.memory chunk.base chunk.raw)).1
      (chunk.base + (type.allocCount - 1) * type.sizeof) 0) 0 (by
        intro slot slotMem
        apply Pointer.load_store_of_disjoint
        have before := (ObjectType.slots_inside slotMem).2
        have fits := type.pointerSize_le
        rw [Nat.mul_comm] at before
        omega) (Pointer.load_store_self null_lt _ _)
  have grown := sound.grow fresh linked null_lt
  rw [Chunk.slots_eq] at grown
  simp only [operatorNew, if_pos used, newArray, last_eq]
  exact ⟨grown.takeFirst.1, rfl, grown.takeFirst.2⟩

/-- `operator new` takes a free slot, if need be of a new chunk. -/
theorem operatorNew_sound (sound : Sound type pool live free 0)
    (fresh : pool.mFreeList = 0 → chunk.Fresh type pool.chunks) :
    ∃ rest, Sound type (operatorNew type chunk pool).2
      ((operatorNew type chunk pool).1 :: live) rest 0 := by
  cases free with
  | nil =>
      rcases operatorNew_of_nil sound (fresh sound.linked) with ⟨obj_eq, _, after⟩
      rw [obj_eq]
      exact ⟨_, after⟩
  | cons slot rest =>
      rcases operatorNew_of_cons chunk sound with ⟨obj_eq, _, after⟩
      rw [obj_eq]
      exact ⟨rest, after⟩

end Homework4

end Gsp
