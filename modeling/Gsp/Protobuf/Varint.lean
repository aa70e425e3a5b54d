import Gsp.Lib.Varint
import Gsp.Protobuf.CodedInputStream

/-!
# Varints read without bounds checks

The unrolled reads of `ReadVarint32Fallback` and `ReadVarint64Fallback` agree with
the plain decoder wherever the buffer settles the number, which is what the two
functions ask before they take the fast path.
-/

namespace Gsp.Protobuf.CodedInputStream

open Varint

variable {α : Type}

/-- The code reads a number in at most `limit` bytes and makes a value of it. -/
def FromArray.Matches (limit : ℕ) (value : ℕ → α) (buffer : List UInt8) (code : FromArray α) :
    Prop :=
  Decides limit buffer →
    code = match decode limit buffer with
      | some (number, rest) => .done (value number) rest
      | none => .corrupt

/-- One byte: the last one, or one with more behind it. -/
theorem FromArray.Matches.next {limit : ℕ} {value : ℕ → α} {buffer : List UInt8}
    {result : UInt32 → α} {more : UInt32 → List UInt8 → FromArray α}
    (last : ∀ byte : UInt8, byte.toNat < 128 → result byte.toUInt32 = value byte.toNat)
    (rest : ∀ (byte : UInt8) (ptr : List UInt8), 128 ≤ byte.toNat →
      Matches limit (fun number => value (byte.toNat - 128 + 128 * number)) ptr
        (more byte.toUInt32 ptr)) :
    Matches (limit + 1) value buffer (.next buffer fun b ptr =>
      if b &&& 0x80 = 0 then .done (result b) ptr else more b ptr) := by
  intro decides
  cases buffer with
  | nil => rcases decides with long | ⟨_, mem, _⟩ <;> simp at *
  | cons byte ptr =>
      have bit : byte.toUInt32 &&& 0x80 = 0 ↔ byte.toNat < 128 := by
        rw [← and_128_eq_zero_iff byte.toNat_lt, ← UInt32.toNat_inj, UInt32.toNat_and]
        rfl
      by_cases small : byte.toNat < 128
      · rw [decode_last small, FromArray.next, if_pos (bit.mpr small)]
        simp only [last byte small]
      · have tail_decides : Decides limit ptr := by
          rcases decides with long | ⟨ending, mem, ending_small⟩
          · exact Or.inl (by simpa using long)
          · rcases List.mem_cons.mp mem with rfl | mem
            · exact absurd ending_small small
            · exact Or.inr ⟨ending, mem, ending_small⟩
        rw [decode_more small, FromArray.next, if_neg (small ∘ bit.mp)]
        rw [rest byte ptr (by omega) tail_decides]
        cases decode limit ptr <;> rfl

theorem FromArray.Matches.corrupt {value : ℕ → α} {buffer : List UInt8} :
    Matches 0 value buffer (.corrupt : FromArray α) :=
  fun _ => rfl

/-! ## Putting digits together -/

theorem toNat_digit (byte : UInt8) : (byte.toUInt32 &&& 0x7F).toNat = byte.toNat % 128 := by
  rw [UInt32.toNat_and]
  exact and_127 byte.toNat

/-- The low byte with its high bit set. -/
theorem toNat_marked (value : UInt32) :
    (value ||| 0x80).toUInt8.toNat = value.toNat % 128 + 128 := by
  have split : (value.toNat ||| 128) % 2 ^ 8 = value.toNat % 2 ^ 8 ||| 128 % 2 ^ 8 :=
    Nat.or_mod_two_pow
  rw [UInt32.toNat_toUInt8, UInt32.toNat_or]
  exact split.trans ((or_128 (Nat.mod_lt _ (by decide))).trans (by omega))

/-- One more digit, at the position of the shift. -/
theorem toNat_or_digit (part : UInt32) {shift : UInt32} {position : ℕ}
    (shift_eq : shift.toNat = position) (small : position ≤ 25)
    (inside : part.toNat < 2 ^ position) (byte : UInt8) :
    (part ||| (byte.toUInt32 &&& 0x7F) <<< shift).toNat =
      part.toNat + byte.toNat % 128 * 2 ^ position := by
  have digit_lt : byte.toNat % 128 < 2 ^ 7 := Nat.mod_lt _ (by decide)
  have exact_shift :
      (byte.toNat % 128) <<< position % 2 ^ 32 = (byte.toNat % 128) <<< position := by
    have scaled := Nat.mul_le_mul digit_lt.le (Nat.pow_le_pow_right (by decide : 0 < 2) small)
    have strict := Nat.mul_lt_mul_of_pos_right digit_lt (Nat.two_pow_pos position)
    have bound := Nat.mul_le_mul_left (2 ^ 7) (Nat.pow_le_pow_right (by decide : 0 < 2) small)
    rw [Nat.shiftLeft_eq, Nat.mod_eq_of_lt (by omega)]
  rw [UInt32.toNat_or, UInt32.toNat_shiftLeft, toNat_digit, shift_eq,
    Nat.mod_eq_of_lt (show position < 32 by omega), exact_shift, or_shiftLeft inside]

/-- The fifth byte, of which four bits stay. -/
theorem toNat_or_top {part : UInt32} (inside : part.toNat < 2 ^ 28) (byte : UInt8) :
    (part ||| byte.toUInt32 <<< 28).toNat = part.toNat + byte.toNat % 16 * 2 ^ 28 := by
  have shift28 : (28 : UInt32).toNat % 32 = 28 := rfl
  have top : byte.toNat <<< 28 % 2 ^ 32 = (byte.toNat % 16) <<< 28 := by
    rw [Nat.shiftLeft_eq, Nat.shiftLeft_eq]
    omega
  rw [UInt32.toNat_or, UInt32.toNat_shiftLeft, UInt8.toNat_toUInt32, shift28, top,
    or_shiftLeft inside]

section JoinParts

variable {part0 part1 part2 : UInt32} {number : ℕ}

theorem toNat_lowParts (inside0 : part0.toNat < 2 ^ 28) (inside1 : part1.toNat < 2 ^ 28) :
    (part0.toUInt64 ||| part1.toUInt64 <<< 28).toNat = part0.toNat + part1.toNat * 2 ^ 28 := by
  have shift28 : (28 : UInt64).toNat % 64 = 28 := rfl
  have middle : part1.toNat <<< 28 % 2 ^ 64 = part1.toNat <<< 28 := by
    rw [Nat.shiftLeft_eq]
    omega
  rw [UInt64.toNat_or, UInt64.toNat_shiftLeft, UInt32.toNat_toUInt64, UInt32.toNat_toUInt64,
    shift28, middle, or_shiftLeft inside0]

theorem joinParts_three (inside0 : part0.toNat < 2 ^ 28) (inside1 : part1.toNat < 2 ^ 28)
    (same : part0.toNat + part1.toNat * 2 ^ 28 + part2.toNat * 2 ^ 56 = number) :
    joinParts part0 part1 part2 = UInt64.ofNat number := by
  have shift56 : (56 : UInt64).toNat % 64 = 56 := rfl
  have high : part2.toNat <<< 56 % 2 ^ 64 = (part2.toNat % 256) <<< 56 := by
    rw [Nat.shiftLeft_eq, Nat.shiftLeft_eq]
    omega
  subst same
  apply UInt64.toNat_inj.mp
  rw [joinParts, UInt64.toNat_or, toNat_lowParts inside0 inside1, UInt64.toNat_shiftLeft,
    UInt32.toNat_toUInt64, shift56, high, or_shiftLeft (by omega), UInt64.toNat_ofNat']
  omega

theorem joinParts_two (inside0 : part0.toNat < 2 ^ 28) (inside1 : part1.toNat < 2 ^ 28)
    (same : part0.toNat + part1.toNat * 2 ^ 28 = number) :
    joinParts part0 part1 0 = UInt64.ofNat number := by
  have no_high : (0 : UInt32).toUInt64 <<< 56 = 0 := rfl
  have low := toNat_lowParts inside0 inside1
  have total := @UInt64.toNat_ofNat' number
  rw [joinParts, no_high, UInt64.or_zero]
  apply UInt64.toNat_inj.mp
  omega

theorem joinParts_one (inside0 : part0.toNat < 2 ^ 28) (same : part0.toNat = number) :
    joinParts part0 0 0 = UInt64.ofNat number := by
  have no_middle : (0 : UInt32).toUInt64 <<< 28 = 0 := rfl
  have no_high : (0 : UInt32).toUInt64 <<< 56 = 0 := rfl
  have total := @UInt64.toNat_ofNat' number
  rw [joinParts, no_middle, no_high, UInt64.or_zero, UInt64.or_zero]
  apply UInt64.toNat_inj.mp
  rw [UInt32.toNat_toUInt64]
  omega

end JoinParts

/-! ## 32 bits -/

theorem matches_discardVarint32 (result : UInt32) (count : ℕ) (ptr : List UInt8) :
    FromArray.Matches count (fun _ => result) ptr (discardVarint32 result count ptr) := by
  induction count generalizing ptr with
  | zero => exact .corrupt
  | succ count ih => exact .next (fun _ _ => rfl) fun _ ptr _ => ih ptr

/-- A short varint is read from the buffer at once. -/
theorem matches_readVarint32FromArray (buffer : List UInt8) :
    FromArray.Matches kMaxVarintBytes UInt32.ofNat buffer (readVarint32FromArray buffer) := by
  have to_ofNat {result : UInt32} {number : ℕ} (same : result.toNat = number % 2 ^ 32) :
      result = UInt32.ofNat number := UInt32.toNat_inj.mp same
  have start := toNat_digit
  refine .next (fun b _ => to_ofNat (by rw [start]; omega)) fun b0 ptr large0 => ?_
  have lt0 := b0.toNat_lt
  have eq0 := start b0
  generalize b0.toUInt32 &&& 0x7F = result at eq0 ⊢
  have step := toNat_or_digit result (show UInt32.toNat 7 = 7 from rfl) (by decide) (by omega)
  refine .next (fun b _ => to_ofNat (by rw [step]; omega)) fun b1 ptr large1 => ?_
  have lt1 := b1.toNat_lt
  have eq1 := step b1
  generalize result ||| (b1.toUInt32 &&& 0x7F) <<< 7 = result at eq1 ⊢
  have step := toNat_or_digit result (show UInt32.toNat 14 = 14 from rfl) (by decide) (by omega)
  refine .next (fun b _ => to_ofNat (by rw [step]; omega)) fun b2 ptr large2 => ?_
  have lt2 := b2.toNat_lt
  have eq2 := step b2
  generalize result ||| (b2.toUInt32 &&& 0x7F) <<< 14 = result at eq2 ⊢
  have step := toNat_or_digit result (show UInt32.toNat 21 = 21 from rfl) (by decide) (by omega)
  refine .next (fun b _ => to_ofNat (by rw [step]; omega)) fun b3 ptr large3 => ?_
  have lt3 := b3.toNat_lt
  have eq3 := step b3
  generalize result ||| (b3.toUInt32 &&& 0x7F) <<< 21 = result at eq3 ⊢
  have step := @toNat_or_top result (by omega)
  refine .next (fun b _ => to_ofNat (by rw [step]; omega)) fun b4 ptr large4 => ?_
  have lt4 := b4.toNat_lt
  have eq4 := step b4
  generalize result ||| b4.toUInt32 <<< 28 = result at eq4 ⊢
  -- What is left of the number has no bit among the low 32.
  have discarded : (fun number => UInt32.ofNat (b0.toNat - 128 + 128 * (b1.toNat - 128 + 128 *
      (b2.toNat - 128 + 128 * (b3.toNat - 128 + 128 * (b4.toNat - 128 + 128 * number)))))) =
        fun _ => result := by
    funext number
    exact (to_ofNat (by omega)).symm
  rw [discarded]
  exact matches_discardVarint32 result _ ptr

/-! ## 64 bits -/

/-- A long varint is read from the buffer at once. -/
theorem matches_readVarint64FromArray (buffer : List UInt8) :
    FromArray.Matches kMaxVarintBytes UInt64.ofNat buffer (readVarint64FromArray buffer) := by
  have start := toNat_digit
  refine .next (fun b small => ?_) fun b0 ptr large0 => ?_
  · have eq := start b
    exact joinParts_one (by omega) (by omega)
  have lt0 := b0.toNat_lt
  have eq0 := start b0
  generalize b0.toUInt32 &&& 0x7F = part0 at eq0 ⊢
  have step := toNat_or_digit part0 (show UInt32.toNat 7 = 7 from rfl) (by decide) (by omega)
  refine .next (fun b small => ?_) fun b1 ptr large1 => ?_
  · have eq := step b
    exact joinParts_one (by omega) (by omega)
  have lt1 := b1.toNat_lt
  have eq1 := step b1
  generalize part0 ||| (b1.toUInt32 &&& 0x7F) <<< 7 = part0 at eq1 ⊢
  have step := toNat_or_digit part0 (show UInt32.toNat 14 = 14 from rfl) (by decide) (by omega)
  refine .next (fun b small => ?_) fun b2 ptr large2 => ?_
  · have eq := step b
    exact joinParts_one (by omega) (by omega)
  have lt2 := b2.toNat_lt
  have eq2 := step b2
  generalize part0 ||| (b2.toUInt32 &&& 0x7F) <<< 14 = part0 at eq2 ⊢
  have step := toNat_or_digit part0 (show UInt32.toNat 21 = 21 from rfl) (by decide) (by omega)
  refine .next (fun b small => ?_) fun b3 ptr large3 => ?_
  · have eq := step b
    exact joinParts_one (by omega) (by omega)
  have lt3 := b3.toNat_lt
  have eq3 := step b3
  generalize part0 ||| (b3.toUInt32 &&& 0x7F) <<< 21 = part0 at eq3 ⊢
  refine .next (fun b small => ?_) fun b4 ptr large4 => ?_
  · have eq := start b
    exact joinParts_two (by omega) (by omega) (by omega)
  have lt4 := b4.toNat_lt
  have eq4 := start b4
  generalize b4.toUInt32 &&& 0x7F = part1 at eq4 ⊢
  have step := toNat_or_digit part1 (show UInt32.toNat 7 = 7 from rfl) (by decide) (by omega)
  refine .next (fun b small => ?_) fun b5 ptr large5 => ?_
  · have eq := step b
    exact joinParts_two (by omega) (by omega) (by omega)
  have lt5 := b5.toNat_lt
  have eq5 := step b5
  generalize part1 ||| (b5.toUInt32 &&& 0x7F) <<< 7 = part1 at eq5 ⊢
  have step := toNat_or_digit part1 (show UInt32.toNat 14 = 14 from rfl) (by decide) (by omega)
  refine .next (fun b small => ?_) fun b6 ptr large6 => ?_
  · have eq := step b
    exact joinParts_two (by omega) (by omega) (by omega)
  have lt6 := b6.toNat_lt
  have eq6 := step b6
  generalize part1 ||| (b6.toUInt32 &&& 0x7F) <<< 14 = part1 at eq6 ⊢
  have step := toNat_or_digit part1 (show UInt32.toNat 21 = 21 from rfl) (by decide) (by omega)
  refine .next (fun b small => ?_) fun b7 ptr large7 => ?_
  · have eq := step b
    exact joinParts_two (by omega) (by omega) (by omega)
  have lt7 := b7.toNat_lt
  have eq7 := step b7
  generalize part1 ||| (b7.toUInt32 &&& 0x7F) <<< 21 = part1 at eq7 ⊢
  refine .next (fun b small => ?_) fun b8 ptr large8 => ?_
  · have eq := start b
    exact joinParts_three (by omega) (by omega) (by omega)
  have lt8 := b8.toNat_lt
  have eq8 := start b8
  generalize b8.toUInt32 &&& 0x7F = part2 at eq8 ⊢
  have step := toNat_or_digit part2 (show UInt32.toNat 7 = 7 from rfl) (by decide) (by omega)
  refine .next (fun b small => ?_) fun _ _ _ => .corrupt
  have eq := step b
  exact joinParts_three (by omega) (by omega) (by omega)

end Gsp.Protobuf.CodedInputStream
