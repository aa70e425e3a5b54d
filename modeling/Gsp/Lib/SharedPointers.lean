import Mathlib.Data.Nat.Notation
import Mathlib.Logic.Function.Basic

/-!
# Shared pointers

`std::shared_ptr` by its control blocks. A pointer is the number of its block,
which knows the object and how many pointers share it. A pointer made from a raw
one starts a block of its own, also when the object has another; when the last
pointer of a block is destroyed, the object is to be deleted.
-/

universe u

/-- The blocks made so far, with their objects and how many pointers share each. -/
structure SharedPointers (Object : Type u) where
  blocks : ℕ
  object : ℕ → Option Object
  useCount : ℕ → ℕ

namespace SharedPointers

variable {Object : Type u}

/-- No block has been made. -/
def empty : SharedPointers Object := ⟨0, fun _ => none, fun _ => 0⟩

/-- From a raw pointer. -/
def construct (object : Object) (shared : SharedPointers Object) : ℕ × SharedPointers Object :=
  (shared.blocks, {
    blocks := shared.blocks + 1
    object := Function.update shared.object shared.blocks (some object)
    useCount := Function.update shared.useCount shared.blocks 1 })

/-- One more pointer with this block. -/
def copy (pointer : ℕ) (shared : SharedPointers Object) : SharedPointers Object :=
  { shared with
    useCount := Function.update shared.useCount pointer (shared.useCount pointer + 1) }

/-- The object is to be deleted with its last pointer. -/
def destroy (pointer : ℕ) (shared : SharedPointers Object) :
    Option Object × SharedPointers Object :=
  let useCount := shared.useCount pointer - 1
  (if useCount = 0 then shared.object pointer else none,
    { shared with useCount := Function.update shared.useCount pointer useCount })

/-- There is one pointer with this block. -/
structure Sole (shared : SharedPointers Object) (pointer : ℕ) : Prop where
  less : pointer < shared.blocks
  object : shared.object pointer ≠ none
  once : shared.useCount pointer = 1

variable {shared : SharedPointers Object} {pointer : ℕ}

/-- A new owner is the only one it knows of. -/
theorem sole_construct (object : Object) (shared : SharedPointers Object) :
    (shared.construct object).2.Sole (shared.construct object).1 where
  less := Nat.lt_succ_self _
  object := by simp [construct]
  once := by simp [construct]

/-- A new owner does not know of the older ones. -/
theorem Sole.construct (sole : shared.Sole pointer) (object : Object) :
    (shared.construct object).2.Sole pointer := by
  have old : pointer ≠ shared.blocks := Nat.ne_of_lt sole.less
  refine ⟨Nat.lt_succ_of_lt sole.less, ?_, ?_⟩
  · simpa only [SharedPointers.construct, Function.update_of_ne old] using sole.object
  · simpa only [SharedPointers.construct, Function.update_of_ne old] using sole.once

theorem Sole.copy {other : ℕ} (sole : shared.Sole pointer) (different : pointer ≠ other) :
    (shared.copy other).Sole pointer := by
  refine ⟨sole.less, sole.object, ?_⟩
  simpa only [SharedPointers.copy, Function.update_of_ne different] using sole.once

/-- The only pointer takes the object with it. -/
theorem Sole.destroy_ne_none (sole : shared.Sole pointer) : (shared.destroy pointer).1 ≠ none := by
  rw [destroy, sole.once]
  exact sole.object

/-- A copy that is destroyed again leaves nothing behind. -/
theorem destroy_copy (used : shared.useCount pointer ≠ 0) :
    (shared.copy pointer).destroy pointer = (none, shared) := by
  simp [copy, destroy, used]

end SharedPointers
