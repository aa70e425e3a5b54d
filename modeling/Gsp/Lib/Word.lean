import Mathlib.Algebra.Order.Ring.Int
import Mathlib.Data.Int.Basic

/-!
# Machine words

Wrapping arithmetic of the word types: unsigned 64-bit subtraction on naturals
and signed 32-bit increment and decrement on integers, each with the range in
which it is exact.
-/

namespace Word

/-- Unsigned 64-bit subtraction. -/
def sub64 (left right : ℕ) : ℕ := ((left : ℤ) - right).emod (2 ^ 64) |>.toNat

/-- Conversion to an unsigned 32-bit word. -/
def toUInt32 (value : ℕ) : ℕ := value % 2 ^ 32

/-- Conversion of a signed value to an unsigned 64-bit word. -/
def ofInt64 (value : ℤ) : ℕ := (value % 2 ^ 64).toNat

/-- Signed 32-bit wrap-around. -/
def wrap32 (value : ℤ) : ℤ := value.bmod (2 ^ 32)

theorem sub64_eq {left right : ℕ} (le : right ≤ left) (lt : left - right < 2 ^ 64) :
    sub64 left right = left - right := by
  have exact_difference : (left : ℤ) - right = ((left - right : ℕ) : ℤ) := by omega
  rw [sub64, exact_difference]
  change (((left - right : ℕ) : ℤ) % (2 ^ 64)).toNat = left - right
  omega

theorem ofInt64_natCast {value : ℕ} (lt : value < 2 ^ 64) : ofInt64 value = value := by
  rw [ofInt64]
  omega

theorem toUInt32_eq {value : ℕ} (lt : value < 2 ^ 32) : toUInt32 value = value :=
  Nat.mod_eq_of_lt lt

theorem wrap32_eq {value : ℤ} (lower : -2 ^ 31 ≤ value) (upper : value < 2 ^ 31) :
    wrap32 value = value :=
  Int.bmod_eq_of_le_mul_two (by omega) (by omega)

theorem wrap32_emod (value : ℤ) : wrap32 value % 2 ^ 32 = value % 2 ^ 32 :=
  Int.bmod_emod

/-- Wrapping depends on the residue only. -/
theorem wrap32_congr {left right : ℤ} (same : left % 2 ^ 32 = right % 2 ^ 32) :
    wrap32 left = wrap32 right := by
  have residues : left % ((2 ^ 32 : ℕ) : ℤ) = right % ((2 ^ 32 : ℕ) : ℤ) := same
  rw [wrap32, wrap32, ← Int.emod_bmod left, residues, Int.emod_bmod]

theorem wrap32_zero : wrap32 0 = 0 := by decide

/-- Only the last of several wrap-arounds counts. -/
@[simp]
theorem wrap32_wrap32_add (left right : ℤ) :
    wrap32 (wrap32 left + right) = wrap32 (left + right) :=
  Int.bmod_add_bmod

@[simp]
theorem wrap32_wrap32_sub (left right : ℤ) :
    wrap32 (wrap32 left - right) = wrap32 (left - right) :=
  Int.bmod_sub_bmod

/-- A wrapped number fits its word. -/
theorem wrap32_mem (value : ℤ) : -2 ^ 31 ≤ wrap32 value ∧ wrap32 value < 2 ^ 31 := by
  have lower := @Int.le_bmod value (2 ^ 32) (by decide)
  have upper := @Int.bmod_lt value (2 ^ 32) (by decide)
  rw [wrap32]
  omega

end Word
