import Mathlib.Algebra.Order.Ring.Int
import Mathlib.Data.List.Basic
import Mathlib.Data.Nat.Bitwise
import Mathlib.Tactic.Ring

/-!
# Numbers in base 128

A number as its digits in base 128, the least significant first, where every byte
but the last has its high bit set. The decoder reads at most a given number of
bytes and accepts numbers with superfluous digits. The bits of a number that is
put together by `|` and `<<` are those of the sum.
-/

namespace Varint

/-- The shortest bytes of a number. -/
def encode (value : ℕ) : List UInt8 :=
  if value < 128 then [UInt8.ofNat value]
  else UInt8.ofNat (value % 128 + 128) :: encode (value / 128)
termination_by value

/-- The number at the front in at most `limit` bytes, and the bytes after it. -/
def decode : ℕ → List UInt8 → Option (ℕ × List UInt8)
  | 0, _ => none
  | _ + 1, [] => none
  | limit + 1, byte :: rest =>
      if byte.toNat < 128 then some (byte.toNat, rest)
      else (decode limit rest).map fun (value, rest) => (byte.toNat - 128 + 128 * value, rest)

@[simp]
theorem decode_zero (bytes : List UInt8) : decode 0 bytes = none := rfl

@[simp]
theorem decode_nil (limit : ℕ) : decode limit [] = none := by
  cases limit <;> rfl

theorem decode_last {limit : ℕ} {byte : UInt8} {rest : List UInt8} (last : byte.toNat < 128) :
    decode (limit + 1) (byte :: rest) = some (byte.toNat, rest) :=
  if_pos last

/-- A byte with its high bit set goes on. -/
theorem decode_more {limit : ℕ} {byte : UInt8} {rest : List UInt8} (more : ¬byte.toNat < 128) :
    decode (limit + 1) (byte :: rest) =
      (decode limit rest).map fun (value, rest) => (byte.toNat - 128 + 128 * value, rest) :=
  if_neg more

theorem decode_two {limit : ℕ} {first second : UInt8} {rest : List UInt8}
    (more : ¬first.toNat < 128) (last : second.toNat < 128) :
    decode (limit + 2) (first :: second :: rest) =
      some (first.toNat - 128 + 128 * second.toNat, rest) := by
  rw [decode_more more, decode_last last]
  rfl

/-! ## Decoding -/

/-- What is read is a front part, which is read in the same way whatever is behind it,
and the number of its digits bounds the value. -/
theorem exists_consumed {limit value : ℕ} {bytes rest : List UInt8}
    (decoded : decode limit bytes = some (value, rest)) :
    ∃ consumed, bytes = consumed ++ rest ∧ 0 < consumed.length ∧ consumed.length ≤ limit ∧
      value < 128 ^ consumed.length ∧
      ∀ behind, decode limit (consumed ++ behind) = some (value, behind) := by
  induction limit generalizing bytes value with
  | zero => simp at decoded
  | succ limit ih =>
      cases bytes with
      | nil => simp at decoded
      | cons byte tail =>
          by_cases last : byte.toNat < 128
          · simp only [decode_last last, Option.some.injEq, Prod.mk.injEq] at decoded
            rcases decoded with ⟨rfl, rfl⟩
            exact ⟨[byte], rfl, by simp, by simp, by simpa using last, fun _ => decode_last last⟩
          · simp only [decode_more last, Option.map_eq_some_iff, Prod.mk.injEq] at decoded
            rcases decoded with ⟨⟨high, after⟩, inner, rfl, rfl⟩
            rcases ih inner with ⟨consumed, rfl, _, short, high_lt, again⟩
            refine ⟨byte :: consumed, rfl, by simp, by simpa using short, ?_, ?_⟩
            · have byte_lt := byte.toNat_lt
              have scaled : 128 * high + 128 ≤ 128 * 128 ^ consumed.length := by
                have step := Nat.mul_le_mul_left 128 (Nat.succ_le_of_lt high_lt)
                omega
              rw [List.length_cons, pow_succ', ← Nat.succ_le_iff]
              omega
            · intro behind
              rw [List.cons_append, decode_more last, again]
              rfl

theorem length_lt {limit value : ℕ} {bytes rest : List UInt8}
    (decoded : decode limit bytes = some (value, rest)) : rest.length < bytes.length := by
  rcases exists_consumed decoded with ⟨consumed, rfl, positive, _⟩
  rw [List.length_append]
  omega

/-- A varint holds seven bits a byte. -/
theorem value_lt {limit value : ℕ} {bytes rest : List UInt8}
    (decoded : decode limit bytes = some (value, rest)) : value < 128 ^ limit := by
  rcases exists_consumed decoded with ⟨consumed, _, _, short, value_lt, _⟩
  exact value_lt.trans_le (Nat.pow_le_pow_right (by decide) short)

/-- Bytes behind the number do not matter. -/
theorem decode_append {limit value : ℕ} {bytes rest : List UInt8}
    (decoded : decode limit bytes = some (value, rest)) (behind : List UInt8) :
    decode limit (bytes ++ behind) = some (value, rest ++ behind) := by
  rcases exists_consumed decoded with ⟨consumed, rfl, _, _, _, again⟩
  rw [List.append_assoc]
  exact again (rest ++ behind)

/-- The bytes settle whether there is a number: there are enough of them, or one of
them ends it. -/
def Decides (limit : ℕ) (bytes : List UInt8) : Prop :=
  limit ≤ bytes.length ∨ ∃ byte ∈ bytes, byte.toNat < 128

/-- A varint that is refused is refused whatever stands behind it. -/
theorem decode_append_none {limit : ℕ} {bytes : List UInt8} (decides : Decides limit bytes)
    (refused : decode limit bytes = none) (behind : List UInt8) :
    decode limit (bytes ++ behind) = none := by
  induction limit generalizing bytes with
  | zero => rfl
  | succ limit ih =>
      cases bytes with
      | nil => rcases decides with long | ⟨_, mem, _⟩ <;> simp at *
      | cons byte tail =>
          by_cases last : byte.toNat < 128
          · simp [decode_last last] at refused
          · simp only [decode_more last, Option.map_eq_none_iff] at refused
            have tail_decides : Decides limit tail := by
              rcases decides with long | ⟨ending, mem, small⟩
              · exact Or.inl (by simpa using long)
              · rcases List.mem_cons.mp mem with rfl | mem
                · exact absurd small last
                · exact Or.inr ⟨ending, mem, small⟩
            rw [List.cons_append, decode_more last, ih tail_decides refused]
            rfl

/-! ## Encoding -/

theorem toNat_ofNat {value : ℕ} (byte : value < 256) : (UInt8.ofNat value).toNat = value :=
  UInt8.toNat_ofNat_of_lt' byte

theorem encode_of_lt {value : ℕ} (small : value < 128) : encode value = [UInt8.ofNat value] := by
  rw [encode, if_pos small]

theorem encode_of_le {value : ℕ} (large : 128 ≤ value) :
    encode value = UInt8.ofNat (value % 128 + 128) :: encode (value / 128) := by
  rw [encode, if_neg (by omega)]

theorem length_encode_pos (value : ℕ) : 0 < (encode value).length := by
  rw [encode]
  split <;> simp

/-- The number of digits. -/
theorem length_encode_le_iff {value digits : ℕ} (positive : 0 < digits) :
    (encode value).length ≤ digits ↔ value < 128 ^ digits := by
  induction digits generalizing value with
  | zero => exact absurd positive (lt_irrefl 0)
  | succ digits ih =>
      have power : 128 ^ (digits + 1) = 128 * 128 ^ digits := pow_succ' 128 digits
      by_cases small : value < 128
      · have at_least : 1 ≤ 128 ^ digits := Nat.one_le_pow _ _ (by decide)
        simp only [encode_of_lt small, List.length_singleton, Nat.le_add_left, true_iff]
        omega
      · rw [encode_of_le (by omega), List.length_cons, Nat.add_le_add_iff_right]
        cases digits with
        | zero =>
            have nonempty := length_encode_pos (value / 128)
            simp only [Nat.le_zero, zero_add, pow_one]
            omega
        | succ digits =>
            rw [ih (by omega), power, Nat.div_lt_iff_lt_mul (by decide), Nat.mul_comm]

/-- Reading back what has been written. -/
theorem decode_encode {limit value : ℕ} (fits : value < 128 ^ limit) (positive : 0 < limit)
    (rest : List UInt8) : decode limit (encode value ++ rest) = some (value, rest) := by
  induction limit generalizing value with
  | zero => exact absurd positive (lt_irrefl 0)
  | succ limit ih =>
      by_cases small : value < 128
      · have byte_eq : (UInt8.ofNat value).toNat = value := toNat_ofNat (by omega)
        rw [encode_of_lt small, List.singleton_append, decode_last (by omega), byte_eq]
      · have byte_eq : (UInt8.ofNat (value % 128 + 128)).toNat = value % 128 + 128 :=
          toNat_ofNat (by omega)
        have high_lt : value / 128 < 128 ^ limit := by
          rw [Nat.div_lt_iff_lt_mul (by decide), ← pow_succ]
          exact fits
        have limit_pos : 0 < limit := by
          rcases Nat.eq_zero_or_pos limit with rfl | positive
          · rw [pow_zero] at high_lt
            omega
          · exact positive
        rw [encode_of_le (by omega), List.cons_append, decode_more (by omega),
          ih high_lt limit_pos, Option.map_some, byte_eq]
        simp only [Option.some.injEq, Prod.mk.injEq, and_true]
        omega

/-! ## Bits -/

/-- The low seven bits. -/
theorem and_127 (value : ℕ) : value &&& 127 = value % 128 :=
  Nat.and_two_pow_sub_one_eq_mod value 7

/-- The high bit of a byte. -/
theorem and_128_eq_zero_iff {value : ℕ} (byte : value < 256) :
    value &&& 128 = 0 ↔ value < 128 := by
  have split : value &&& 128 = value / 128 % 2 * 128 := by
    have bit := Nat.and_two_pow value 7
    rw [Nat.toNat_testBit] at bit
    exact bit
  rw [split]
  omega

/-- The high bit is set by `|`. -/
theorem or_128 {value : ℕ} (byte : value < 256) : value ||| 128 = value % 128 + 128 := by
  have set {low : ℕ} (small : low < 2 ^ 7) : low ||| 128 = low + 128 := by
    have split := Nat.two_pow_add_eq_or_of_lt small 1
    rw [Nat.or_comm, show 128 = 2 ^ 7 * 1 from rfl, ← split, Nat.add_comm]
  by_cases small : value < 128
  · rw [set small, Nat.mod_eq_of_lt small]
  · have low_eq := set (show value - 128 < 2 ^ 7 by omega)
    have again : value = (value - 128) ||| 128 := by omega
    rw [again, Nat.or_assoc, Nat.or_self, low_eq]
    omega

/-- Digits put side by side. -/
theorem or_shiftLeft {low high shift : ℕ} (small : low < 2 ^ shift) :
    low ||| high <<< shift = low + high * 2 ^ shift := by
  have split := Nat.two_pow_add_eq_or_of_lt small high
  rw [Nat.or_comm, Nat.shiftLeft_eq, Nat.mul_comm, ← split, Nat.add_comm]

/-! ## Digits one by one -/

/-- The first digits, each with its high bit set. -/
def marked : ℕ → ℕ → List UInt8
  | 0, _ => []
  | count + 1, value => UInt8.ofNat (value % 128 + 128) :: marked count (value / 128)

theorem take_marked {fewer count : ℕ} (le : fewer ≤ count) (value : ℕ) :
    (marked count value).take fewer = marked fewer value := by
  induction fewer generalizing count value with
  | zero => rfl
  | succ fewer ih =>
      cases count with
      | zero => omega
      | succ count => rw [marked, marked, List.take_succ_cons, ih (by omega)]

/-- A number of `count + 1` digits, of which all but the last are marked. -/
theorem encode_eq_marked {count value : ℕ} (least : count = 0 ∨ 128 ^ count ≤ value)
    (fits : value < 128 ^ (count + 1)) :
    encode value = marked count value ++ [UInt8.ofNat (value / 128 ^ count)] := by
  induction count generalizing value with
  | zero =>
      rw [encode_of_lt (by omega), pow_zero, Nat.div_one]
      rfl
  | succ count ih =>
      have power : 128 ^ (count + 1) = 128 ^ count * 128 := pow_succ 128 count
      have at_least : 1 ≤ 128 ^ count := Nat.one_le_pow _ _ (by decide)
      have large : 128 ^ (count + 1) ≤ value := by omega
      have high_least : 128 ^ count ≤ value / 128 :=
        (Nat.le_div_iff_mul_le (by decide)).mpr (by omega)
      have high_fits : value / 128 < 128 ^ (count + 1) := by
        rw [Nat.div_lt_iff_lt_mul (by decide), ← pow_succ]
        exact fits
      rw [encode_of_le (by omega), ih (Or.inr high_least) high_fits, Nat.div_div_eq_div_mul, power,
        Nat.mul_comm 128]
      rfl

/-- All digits are marked, and the last mark is taken back. -/
theorem modify_marked {count value : ℕ} (least : count = 0 ∨ 128 ^ count ≤ value)
    (fits : value < 128 ^ (count + 1)) :
    (marked (count + 1) value).modify count (· &&& 0x7F) = encode value := by
  have modified : (marked (count + 1) value).modify count (· &&& 0x7F) = marked count value ++
      [UInt8.ofNat (value / 128 ^ count % 128 + 128) &&& 0x7F] := by
    clear least fits
    induction count generalizing value with
    | zero => simp [marked]
    | succ count ih =>
        have power : 128 ^ (count + 1) = 128 * 128 ^ count := pow_succ' 128 count
        rw [marked, List.modify_succ_cons, ih, Nat.div_div_eq_div_mul, power]
        rfl
  have last_lt : value / 128 ^ count < 128 := by
    rw [Nat.div_lt_iff_lt_mul (Nat.pow_pos (by decide)), Nat.mul_comm, ← pow_succ]
    exact fits
  have unmarked : UInt8.ofNat (value / 128 ^ count % 128 + 128) &&& 0x7F =
      UInt8.ofNat (value / 128 ^ count) := by
    generalize value / 128 ^ count = digit at last_lt
    apply UInt8.toNat_inj.mp
    rw [UInt8.toNat_and, toNat_ofNat (by omega), toNat_ofNat (by omega)]
    exact (and_127 _).trans (by omega)
  rw [modified, unmarked, encode_eq_marked least fits]

end Varint
