import Gsp.Protobuf.MessageFormat
import Gsp.Protobuf.Varint
import Gsp.Protobuf.Written

/-!
# Serialized messages

What the code writes for numbers, for fields and for messages whose sizes are
cached: the bytes of the format, as many as the size says, with the fast paths as
with the slow ones.
-/

namespace Gsp.Protobuf

open CodedOutputStream WireFormatLite Wire Generated

/-- The code writes these bytes and runs into no failing check. -/
def Emits (write : Writer) (bytes : List UInt8) : Prop :=
  ∀ stream, stream.Coherent → ∃ next, write stream = some next ∧ Wrote stream bytes next

theorem Emits.skip : Emits .skip [] := fun stream coherent => ⟨stream, rfl, coherent.refl⟩

/-- What is written in two parts stands one behind the other. -/
theorem Emits.andThen {first second : Writer} {bytes more : List UInt8}
    (one : Emits first bytes) (other : Emits second more) :
    Emits (first.andThen second) (bytes ++ more) := by
  intro stream coherent
  rcases one stream coherent with ⟨next, written, wrote⟩
  rcases other next wrote.coherent with ⟨last, further_written, further⟩
  refine ⟨last, ?_, wrote.trans coherent further⟩
  rw [Writer.andThen, written]
  exact further_written

theorem emits_writeBytes (bytes : List UInt8) : Emits (writeBytes bytes) bytes :=
  fun _ coherent => ⟨_, rfl, coherent.writeRaw bytes⟩

/-- Bytes that are put into the buffer if there is enough of it. -/
theorem emits_enough {enough : ℕ} {fast slow bytes : List UInt8} (fast_eq : fast = bytes)
    (slow_eq : slow = bytes) (short : bytes.length ≤ enough) :
    Emits (fun stream =>
      if enough ≤ stream.bufferSize then some (stream.put fast) else some (stream.writeRaw slow))
      bytes := by
  intro stream coherent
  subst fast_eq slow_eq
  by_cases fast : enough ≤ stream.bufferSize
  · exact ⟨_, if_pos fast, coherent.put (by omega)⟩
  · exact ⟨_, if_neg fast, coherent.writeRaw _⟩

/-! ## Numbers -/

namespace CodedOutputStream

theorem composeVarint_eq (value : UInt64) : composeVarint value = Varint.encode value.toNat := by
  fun_induction composeVarint value with
  | case1 value large ih =>
      have large_nat : 128 ≤ value.toNat := UInt64.lt_iff_toNat_lt.mp large
      have shifted : (value >>> 7).toNat = value.toNat / 128 := by
        rw [UInt64.toNat_shiftRight]
        exact Nat.shiftRight_eq_div_pow _ _
      have low : (value.toUInt8 &&& 0x7F).toNat = value.toNat % 128 := by
        rw [UInt8.toNat_and, UInt64.toNat_toUInt8]
        exact (Varint.and_127 _).trans (by omega)
      have byte_eq : value.toUInt8 &&& 0x7F ||| 0x80 = UInt8.ofNat (value.toNat % 128 + 128) := by
        apply UInt8.toNat_inj.mp
        rw [UInt8.toNat_or, low, Varint.toNat_ofNat (by omega)]
        exact (Varint.or_128 (by omega)).trans (by omega)
      rw [ih, shifted, byte_eq, Varint.encode_of_le large_nat]
  | case2 value small =>
      have small_nat : value.toNat < 128 := by
        have not_large := mt UInt64.lt_iff_toNat_lt.mpr small
        exact Nat.lt_of_not_le not_large
      have byte_eq : value.toUInt8 &&& 0x7F = UInt8.ofNat value.toNat := by
        apply UInt8.toNat_inj.mp
        rw [UInt8.toNat_and, UInt64.toNat_toUInt8, Varint.toNat_ofNat (by omega)]
        exact (Varint.and_127 _).trans (by omega)
      rw [byte_eq, Varint.encode_of_lt small_nat]

/-- A byte with its high bit set is a digit with more behind it. -/
theorem marked_eq {value : UInt32} {number : ℕ} (same : value.toNat % 128 = number % 128) :
    (value ||| 0x80).toUInt8 = UInt8.ofNat (number % 128 + 128) := by
  apply UInt8.toNat_inj.mp
  rw [CodedInputStream.toNat_marked, Varint.toNat_ofNat (by omega), same]

theorem toNat_shiftRight32 (value : UInt32) {shift : UInt32} {count : ℕ}
    (shift_eq : shift.toNat = count) (small : count < 32) :
    (value >>> shift).toNat = value.toNat / 2 ^ count := by
  rw [UInt32.toNat_shiftRight, shift_eq, Nat.mod_eq_of_lt small, Nat.shiftRight_eq_div_pow]

theorem writeVarint32FallbackToArray_eq (value : UInt32) :
    writeVarint32FallbackToArray value = Varint.encode value.toNat := by
  have value_lt := value.toNat_lt
  have shift7 := toNat_shiftRight32 value (show UInt32.toNat 7 = 7 from rfl) (by decide)
  have shift14 := toNat_shiftRight32 value (show UInt32.toNat 14 = 14 from rfl) (by decide)
  have shift21 := toNat_shiftRight32 value (show UInt32.toNat 21 = 21 from rfl) (by decide)
  have shift28 := toNat_shiftRight32 value (show UInt32.toNat 28 = 28 from rfl) (by decide)
  have digit0 : (value ||| 0x80).toUInt8 = UInt8.ofNat (value.toNat % 128 + 128) := marked_eq rfl
  have digit1 := @marked_eq (value >>> 7) (value.toNat / 128) (by omega)
  have digit2 := @marked_eq (value >>> 14) (value.toNat / 128 / 128) (by omega)
  have digit3 := @marked_eq (value >>> 21) (value.toNat / 128 / 128 / 128) (by omega)
  have le_iff {bound : UInt32} {number : ℕ} (bound_eq : bound.toNat = number) :
      bound ≤ value ↔ number ≤ value.toNat := by
    rw [UInt32.le_iff_toNat_le, bound_eq]
  have le7 := le_iff (show ((1 : UInt32) <<< 7).toNat = 128 ^ 1 from rfl)
  have le14 := le_iff (show ((1 : UInt32) <<< 14).toNat = 128 ^ 2 from rfl)
  have le21 := le_iff (show ((1 : UInt32) <<< 21).toNat = 128 ^ 3 from rfl)
  have le28 := le_iff (show ((1 : UInt32) <<< 28).toNat = 128 ^ 4 from rfl)
  simp only [writeVarint32FallbackToArray, le7, le14, le21, le28, digit0, digit1, digit2, digit3]
  split_ifs with two three four five
  · have last : (value >>> 28).toUInt8 = UInt8.ofNat (value.toNat / 128 ^ 4) := by
      apply UInt8.toNat_inj.mp
      rw [UInt32.toNat_toUInt8, shift28, Varint.toNat_ofNat (by omega)]
      omega
    rw [@Varint.encode_eq_marked 4 _ (Or.inr five) (by omega), last]
    rfl
  · exact @Varint.modify_marked 3 _ (Or.inr four) (by omega)
  · exact @Varint.modify_marked 2 _ (Or.inr three) (by omega)
  · exact @Varint.modify_marked 1 _ (Or.inr two) (by omega)
  · exact @Varint.modify_marked 0 _ (Or.inl rfl) (by omega)

/-- The number of digits lies between the powers around the value. -/
theorem length_encode_eq {value count : ℕ} (least : count = 0 ∨ 128 ^ count ≤ value)
    (fits : value < 128 ^ (count + 1)) : (Varint.encode value).length = count + 1 := by
  have at_most := (Varint.length_encode_le_iff (Nat.succ_pos count)).mpr fits
  have nonempty := Varint.length_encode_pos value
  rcases least with rfl | least
  · omega
  · rcases Nat.eq_zero_or_pos count with rfl | positive
    · omega
    · have at_least := mt (Varint.length_encode_le_iff positive).mp (Nat.not_lt.mpr least)
      omega

/-- The size of a varint is the number of its bytes. -/
theorem varintSize32_eq (value : UInt32) :
    varintSize32 value = (Varint.encode value.toNat).length := by
  have value_lt := value.toNat_lt
  have lt_iff {bound : UInt32} {number : ℕ} (bound_eq : bound.toNat = number) :
      value < bound ↔ value.toNat < number := by
    rw [UInt32.lt_iff_toNat_lt, bound_eq]
  have lt7 := lt_iff (show ((1 : UInt32) <<< 7).toNat = 128 ^ 1 from rfl)
  have lt14 := lt_iff (show ((1 : UInt32) <<< 14).toNat = 128 ^ 2 from rfl)
  have lt21 := lt_iff (show ((1 : UInt32) <<< 21).toNat = 128 ^ 3 from rfl)
  have lt28 := lt_iff (show ((1 : UInt32) <<< 28).toNat = 128 ^ 4 from rfl)
  simp only [varintSize32, varintSize32Fallback, lt7, lt14, lt21, lt28]
  symm
  split_ifs
  · exact @length_encode_eq _ 0 (Or.inl rfl) (by omega)
  · exact @length_encode_eq _ 1 (Or.inr (by omega)) (by omega)
  · exact @length_encode_eq _ 2 (Or.inr (by omega)) (by omega)
  · exact @length_encode_eq _ 3 (Or.inr (by omega)) (by omega)
  · exact @length_encode_eq _ 4 (Or.inr (by omega)) (by omega)

section Parts

variable (value : UInt64)

theorem toNat_part0 : value.toUInt32.toNat = value.toNat % 2 ^ 32 := UInt64.toNat_toUInt32 value

theorem toNat_part1 : (value >>> 28).toUInt32.toNat = value.toNat / 2 ^ 28 % 2 ^ 32 := by
  have shifted : (value >>> 28).toNat = value.toNat / 2 ^ 28 := by
    rw [UInt64.toNat_shiftRight]
    exact Nat.shiftRight_eq_div_pow _ _
  rw [UInt64.toNat_toUInt32, shifted]

theorem toNat_part2 : (value >>> 56).toUInt32.toNat = value.toNat / 2 ^ 56 := by
  have value_lt := value.toNat_lt
  have shifted : (value >>> 56).toNat = value.toNat / 2 ^ 56 := by
    rw [UInt64.toNat_shiftRight]
    exact Nat.shiftRight_eq_div_pow _ _
  rw [UInt64.toNat_toUInt32, shifted]
  omega

theorem varintPartsSize_eq :
    varintPartsSize value.toUInt32 (value >>> 28).toUInt32 (value >>> 56).toUInt32 =
      (Varint.encode value.toNat).length := by
  have value_lt := value.toNat_lt
  have part0_eq := toNat_part0 value
  have part1_eq := toNat_part1 value
  have part2_eq := toNat_part2 value
  generalize value.toUInt32 = part0 at *
  generalize (value >>> 28).toUInt32 = part1 at *
  generalize (value >>> 56).toUInt32 = part2 at *
  have lt7 (part : UInt32) : part < (1 : UInt32) <<< 7 ↔ part.toNat < 2 ^ 7 :=
    UInt32.lt_iff_toNat_lt
  have lt14 (part : UInt32) : part < (1 : UInt32) <<< 14 ↔ part.toNat < 2 ^ 14 :=
    UInt32.lt_iff_toNat_lt
  have lt21 (part : UInt32) : part < (1 : UInt32) <<< 21 ↔ part.toNat < 2 ^ 21 :=
    UInt32.lt_iff_toNat_lt
  have zero_iff (part : UInt32) : part = 0 ↔ part.toNat = 0 := UInt32.toNat_inj.symm
  simp only [varintPartsSize, lt7, lt14, lt21, zero_iff]
  symm
  split_ifs
  · exact @length_encode_eq _ 0 (Or.inl rfl) (by omega)
  · exact @length_encode_eq _ 1 (Or.inr (by omega)) (by omega)
  · exact @length_encode_eq _ 2 (Or.inr (by omega)) (by omega)
  · exact @length_encode_eq _ 3 (Or.inr (by omega)) (by omega)
  · exact @length_encode_eq _ 4 (Or.inr (by omega)) (by omega)
  · exact @length_encode_eq _ 5 (Or.inr (by omega)) (by omega)
  · exact @length_encode_eq _ 6 (Or.inr (by omega)) (by omega)
  · exact @length_encode_eq _ 7 (Or.inr (by omega)) (by omega)
  · exact @length_encode_eq _ 8 (Or.inr (by omega)) (by omega)
  · exact @length_encode_eq _ 9 (Or.inr (by omega)) (by omega)

/-- All ten bytes before they are cut off at the size. -/
theorem target_eq :
    [(value.toUInt32 ||| 0x80).toUInt8, (value.toUInt32 >>> 7 ||| 0x80).toUInt8,
      (value.toUInt32 >>> 14 ||| 0x80).toUInt8, (value.toUInt32 >>> 21 ||| 0x80).toUInt8,
      ((value >>> 28).toUInt32 ||| 0x80).toUInt8, ((value >>> 28).toUInt32 >>> 7 ||| 0x80).toUInt8,
      ((value >>> 28).toUInt32 >>> 14 ||| 0x80).toUInt8,
      ((value >>> 28).toUInt32 >>> 21 ||| 0x80).toUInt8,
      ((value >>> 56).toUInt32 ||| 0x80).toUInt8,
      ((value >>> 56).toUInt32 >>> 7 ||| 0x80).toUInt8] = Varint.marked 10 value.toNat := by
  have value_lt := value.toNat_lt
  have part0_eq := toNat_part0 value
  have part1_eq := toNat_part1 value
  have part2_eq := toNat_part2 value
  generalize value.toUInt32 = part0 at *
  generalize (value >>> 28).toUInt32 = part1 at *
  generalize (value >>> 56).toUInt32 = part2 at *
  have shift7 (part : UInt32) := toNat_shiftRight32 part (show UInt32.toNat 7 = 7 from rfl)
    (by decide)
  have shift14 (part : UInt32) := toNat_shiftRight32 part (show UInt32.toNat 14 = 14 from rfl)
    (by decide)
  have shift21 (part : UInt32) := toNat_shiftRight32 part (show UInt32.toNat 21 = 21 from rfl)
    (by decide)
  have digit0 := @marked_eq part0 (value.toNat)
    (by omega)
  have digit1 := @marked_eq (part0 >>> 7) (value.toNat / 128)
    (by rw [shift7]; omega)
  have digit2 := @marked_eq (part0 >>> 14) (value.toNat / 128 / 128)
    (by rw [shift14]; omega)
  have digit3 := @marked_eq (part0 >>> 21) (value.toNat / 128 / 128 / 128)
    (by rw [shift21]; omega)
  have digit4 := @marked_eq part1 (value.toNat / 128 / 128 / 128 / 128)
    (by omega)
  have digit5 := @marked_eq (part1 >>> 7) (value.toNat / 128 / 128 / 128 / 128 / 128)
    (by rw [shift7]; omega)
  have digit6 := @marked_eq (part1 >>> 14) (value.toNat / 128 / 128 / 128 / 128 / 128 / 128)
    (by rw [shift14]; omega)
  have digit7 := @marked_eq (part1 >>> 21) (value.toNat / 128 / 128 / 128 / 128 / 128 / 128 / 128)
    (by rw [shift21]; omega)
  have digit8 := @marked_eq part2 (value.toNat / 128 / 128 / 128 / 128 / 128 / 128 / 128 / 128)
    (by omega)
  have digit9 := @marked_eq (part2 >>> 7)
    (value.toNat / 128 / 128 / 128 / 128 / 128 / 128 / 128 / 128 / 128) (by rw [shift7]; omega)
  rw [digit0, digit1, digit2, digit3, digit4, digit5, digit6, digit7, digit8, digit9]
  rfl

/-- The parts of a long varint are written as one. -/
theorem writeVarint64ToArray_eq : writeVarint64ToArray value = Varint.encode value.toNat := by
  have value_lt := value.toNat_lt
  have nonempty := Varint.length_encode_pos value.toNat
  have short : (Varint.encode value.toNat).length ≤ 10 :=
    (Varint.length_encode_le_iff (by decide)).mpr (by omega)
  simp only [writeVarint64ToArray, target_eq, varintPartsSize_eq]
  rw [Varint.take_marked short]
  generalize length_eq : (Varint.encode value.toNat).length = length at nonempty short
  cases length with
  | zero => omega
  | succ count =>
      have fits := (Varint.length_encode_le_iff (Nat.succ_pos count)).mp length_eq.le
      refine Varint.modify_marked ?_ fits
      rcases Nat.eq_zero_or_pos count with rfl | positive
      · exact Or.inl rfl
      · right
        apply Nat.le_of_not_lt
        intro small
        have fewer := (Varint.length_encode_le_iff positive).mpr small
        omega

end Parts

theorem emits_writeVarint32 (value : UInt32) :
    Emits (writeVarint32 value) (Varint.encode value.toNat) := by
  have short : (Varint.encode value.toNat).length ≤ kMaxVarint32Bytes :=
    (Varint.length_encode_le_iff (by decide)).mpr (value.toNat_lt.trans (by decide))
  have slow_eq : composeVarint value.toUInt64 = Varint.encode value.toNat := by
    rw [composeVarint_eq, UInt32.toNat_toUInt64]
  exact emits_enough (writeVarint32FallbackToArray_eq value) slow_eq short

theorem emits_writeVarint64 (value : UInt64) :
    Emits (writeVarint64 value) (Varint.encode value.toNat) := by
  have short : (Varint.encode value.toNat).length ≤ kMaxVarintBytes :=
    (Varint.length_encode_le_iff (by decide)).mpr (value.toNat_lt.trans (by decide))
  exact emits_enough (writeVarint64ToArray_eq value) (composeVarint_eq value) short

theorem emits_writeLittleEndian32 (value : UInt32) :
    Emits (writeLittleEndian32 value) (Pointer.encode 4 value.toNat) :=
  emits_enough rfl rfl le_rfl

theorem emits_writeVarint32SignExtended (value : Int32) :
    Emits (writeVarint32SignExtended value) (Varint.encode value.toInt64.toUInt64.toNat) := by
  rw [writeVarint32SignExtended]
  split
  · exact emits_writeVarint64 _
  · rename_i nonnegative
    rw [toNat_extended, if_neg nonnegative]
    exact emits_writeVarint32 _

theorem varintSize32SignExtended_eq (value : Int32) :
    varintSize32SignExtended value = (Varint.encode value.toInt64.toUInt64.toNat).length := by
  have value_lt := value.toInt64.toUInt64.toNat_lt
  rw [varintSize32SignExtended]
  split
  · rename_i negative
    have extended := toNat_extended value
    rw [if_pos negative] at extended
    exact (@length_encode_eq _ 9 (Or.inr (by omega)) (by omega)).symm
  · rename_i nonnegative
    rw [toNat_extended, if_neg nonnegative]
    exact varintSize32_eq _

end CodedOutputStream

/-! ## Fields -/

variable {M N V : Type}

/-- The code for a field writes what the rule says, once the sizes are cached. -/
structure Field.WritesAs [Generated M] (field : Field M) (rule : Rule M) : Prop where
  tag_lt : rule.tag.toNat < 128
  has_eq : ∀ message, field.has message = (rule.encode message).isSome
  has_cached : ∀ message : M, field.has (Generated.cacheSizes message) = field.has message
  /-- One of the two fits an `int`. -/
  size_eq : ∀ message bytes, rule.encode message = some bytes →
    min (field.size message) bytes.length ≤ intMax → field.size message = bytes.length
  emits : ∀ message bytes, rule.encode message = some bytes → bytes.length ≤ intMax →
    Emits (field.serialize (Generated.cacheSizes message)) (Varint.encode rule.tag.toNat ++ bytes)

/-- The code for a message writes what the schema says. -/
structure SerializesAs (M : Type) [Generated M] (schema : Schema M) : Prop where
  fields_write : List.Forall₂ Field.WritesAs (fields : List (Field M)) schema
  cached_eq : ∀ message : M, getCachedSize (cacheSizes message) = byteSize message

section Message

variable [Generated M] {schema : Schema M}

/-- The size of the fields that are set. -/
def sizes (listed : List (Field M)) (message : M) : ℕ :=
  (listed.map fun field => if field.has message then 1 + field.size message else 0).sum

/-- The cached sizes are those of what is written. -/
theorem sizes_eq {listed : List (Field M)} {rules : Schema M}
    (listed_write : List.Forall₂ Field.WritesAs listed rules) {message : M}
    (fits : min (sizes listed message) (rules.encode message).length ≤ intMax) :
    sizes listed message = (rules.encode message).length := by
  induction listed_write with
  | nil => rfl
  | @cons field rule listed rules writes _ ih =>
      have both : Schema.encode (rule :: rules) message =
          rule.record message ++ Schema.encode rules message := List.flatMap_cons
      have sum : sizes (field :: listed) message =
          (if field.has message then 1 + field.size message else 0) + sizes listed message := by
        rw [sizes, List.map_cons, List.sum_cons, sizes]
      rw [both, List.length_append, sum] at fits ⊢
      rw [ih (by omega)]
      rw [writes.has_eq] at fits ⊢
      rcases encoded : rule.encode message with _ | bytes
      · rw [Rule.record_none encoded]
        rfl
      · have tag_length : (Varint.encode rule.tag.toNat).length = 1 := by
          rw [Varint.encode_of_lt writes.tag_lt, List.length_singleton]
        rw [Rule.record_some encoded, List.length_append, tag_length, encoded, Option.isSome_some,
          if_pos rfl] at fits
        rw [Rule.record_some encoded, List.length_append, tag_length, Option.isSome_some,
          if_pos rfl, writes.size_eq message bytes encoded (by omega)]

/-- `ByteSize` is the length of what is written. -/
theorem SerializesAs.byteSize_eq (serializes : SerializesAs M schema) {message : M}
    (fits : min (byteSize message) (schema.encode message).length ≤ intMax) :
    byteSize message = (schema.encode message).length :=
  sizes_eq serializes.fields_write fits

/-- The fields that are set are written one after the other. -/
theorem emits_fields {listed : List (Field M)} {rules : Schema M}
    (listed_write : List.Forall₂ Field.WritesAs listed rules) {message : M}
    (fits : (rules.encode message).length ≤ intMax) :
    Emits (listed.foldr (fun field rest =>
      (if field.has (cacheSizes message) then field.serialize (cacheSizes message)
        else .skip).andThen rest) .skip) (rules.encode message) := by
  induction listed_write with
  | nil => exact .skip
  | @cons field rule listed rules writes _ ih =>
      have both : Schema.encode (rule :: rules) message =
          rule.record message ++ Schema.encode rules message := List.flatMap_cons
      rw [both, List.length_append] at fits
      rw [both, List.foldr_cons]
      refine Emits.andThen ?_ (ih (by omega))
      rw [writes.has_cached, writes.has_eq]
      rcases encoded : rule.encode message with _ | bytes
      · rw [Rule.record_none encoded]
        exact .skip
      · rw [Rule.record_some encoded, List.length_append] at fits
        rw [Rule.record_some encoded]
        exact writes.emits message bytes encoded (by omega)

/-- A message with its sizes cached writes itself. -/
theorem SerializesAs.emits (serializes : SerializesAs M schema) {message : M}
    (fits : (schema.encode message).length ≤ intMax) :
    Emits (serializeWithCachedSizes (cacheSizes message)) (schema.encode message) :=
  emits_fields serializes.fields_write fits

end Message

/-! ## The kinds of fields -/

namespace Field

theorem emits_writeTag (number : UInt32) (type : WireType) :
    Emits (writeTag number type) (Varint.encode (makeTag number type).toNat) :=
  emits_writeVarint32 _

theorem of_encode {number : UInt32} {codec : Codec V} {member : Member M V} {message : M}
    {bytes : List UInt8} (encoded : (Rule.of number codec member).encode message = some bytes) :
    ∃ value, member.get message = some value ∧ codec.encode value = bytes :=
  Option.map_eq_some_iff.mp encoded

/-- A length that fits an `int`. -/
theorem toNat_length {length : ℕ} (fits : length ≤ intMax) :
    (UInt32.ofNat length).toNat = length := by
  rw [intMax] at fits
  exact UInt32.toNat_ofNat_of_lt' (show length < 2 ^ 32 by omega)

theorem lengthDelimitedSize_eq {length : ℕ} (fits : length ≤ intMax) :
    lengthDelimitedSize length = (Varint.encode length).length + length := by
  rw [lengthDelimitedSize, varintSize32_eq, toNat_length fits, Nat.add_comm]

section Scalar

variable [Generated M] {number : UInt32} {expected : Option UInt32}

theorem writesAs_int32 (member : Member M Int32) (small : (makeTag number .varint).toNat < 128)
    (cached : ∀ message : M, member.get (Generated.cacheSizes message) = member.get message) :
    (int32 number member expected).WritesAs (.of number .int32 member) where
  tag_lt := small
  has_eq message := by simp [int32, Rule.of]
  has_cached message := by simp only [int32, cached]
  size_eq message bytes encoded _ := by
    rcases of_encode encoded with ⟨value, get_eq, rfl⟩
    simp only [int32, get_eq, Option.getD_some, int32Size]
    exact varintSize32SignExtended_eq value
  emits message bytes encoded _ := by
    rcases of_encode encoded with ⟨value, get_eq, rfl⟩
    simp only [int32, cached, get_eq, Option.getD_some]
    exact (emits_writeTag number .varint).andThen (emits_writeVarint32SignExtended value)

theorem writesAs_float (member : Member M UInt32) (small : (makeTag number .fixed32).toNat < 128)
    (cached : ∀ message : M, member.get (Generated.cacheSizes message) = member.get message) :
    (float number member expected).WritesAs (.of number .float member) where
  tag_lt := small
  has_eq message := by simp [float, Rule.of]
  has_cached message := by simp only [float, cached]
  size_eq message bytes encoded _ := by
    rcases of_encode encoded with ⟨value, _, rfl⟩
    rfl
  emits message bytes encoded _ := by
    rcases of_encode encoded with ⟨value, get_eq, rfl⟩
    simp only [float, cached, get_eq, Option.getD_some]
    exact (emits_writeTag number .fixed32).andThen (emits_writeLittleEndian32 value)

theorem writesAs_string (member : Member M (List UInt8))
    (small : (makeTag number .lengthDelimited).toNat < 128)
    (cached : ∀ message : M, member.get (Generated.cacheSizes message) = member.get message) :
    (string number member expected).WritesAs (.of number .string member) where
  tag_lt := small
  has_eq message := by simp [string, Rule.of]
  has_cached message := by simp only [string, cached]
  size_eq message bytes encoded fits := by
    rcases of_encode encoded with ⟨value, get_eq, rfl⟩
    simp only [string, Codec.string, get_eq, Option.getD_some, stringSize, lengthDelimitedSize,
      List.length_append] at fits ⊢
    exact lengthDelimitedSize_eq (by omega)
  emits message bytes encoded fits := by
    rcases of_encode encoded with ⟨value, get_eq, rfl⟩
    simp only [Codec.string, List.length_append] at fits
    have value_fits : value.length ≤ kint32max := Nat.le_of_add_left_le fits
    have length_eq := toNat_length value_fits
    have writes_length := emits_writeVarint32 (UInt32.ofNat value.length)
    rw [length_eq] at writes_length
    have checked : writeString number value = (writeTag number .lengthDelimited).andThen
        ((writeVarint32 (UInt32.ofNat value.length)).andThen (writeBytes value)) :=
      congrArg _ (if_pos value_fits)
    simp only [string, cached, get_eq, Option.getD_some, checked]
    exact (emits_writeTag number .lengthDelimited).andThen
      (writes_length.andThen (emits_writeBytes value))

end Scalar

theorem writesAs_message [Generated M] [Generated N] {number : UInt32} {expected : Option UInt32}
    {schema : Schema N} (serializes : SerializesAs N schema) (member : Member M N)
    (small : (makeTag number .lengthDelimited).toNat < 128)
    (cached : ∀ message : M,
      member.get (Generated.cacheSizes message) = (member.get message).map Generated.cacheSizes) :
    (Field.message number member expected).WritesAs
      (.of number (.message Generated.construct schema) member) where
  tag_lt := small
  has_eq message := by simp [Field.message, Rule.of]
  has_cached message := by simp [Field.message, cached]
  size_eq message bytes encoded fits := by
    rcases of_encode encoded with ⟨value, get_eq, rfl⟩
    simp only [Field.message, Codec.message, get_eq, Option.getD_some, lengthDelimitedSize,
      List.length_append] at fits ⊢
    have byteSize_eq := @serializes.byteSize_eq _ _ _ value (by omega)
    rw [byteSize_eq] at fits ⊢
    exact lengthDelimitedSize_eq (by omega)
  emits message bytes encoded fits := by
    rcases of_encode encoded with ⟨value, get_eq, rfl⟩
    simp only [Codec.message, List.length_append] at fits
    have value_fits : (schema.encode value).length ≤ intMax := Nat.le_of_add_left_le fits
    have writes_length := emits_writeVarint32 (UInt32.ofNat (schema.encode value).length)
    rw [toNat_length value_fits] at writes_length
    simp only [Field.message, cached, get_eq, Option.map_some, Option.getD_some,
      serializes.cached_eq, serializes.byteSize_eq ((Nat.min_le_right _ _).trans value_fits),
      writeMessage]
    exact (emits_writeTag number .lengthDelimited).andThen
      (writes_length.andThen (serializes.emits value_fits))

end Field

/-! ## Whole messages -/

/-- The stream before its constructor refreshes it. -/
theorem coherent_construct (data : List UInt8) (blockSize : ℤ) :
    (CodedOutputStream.construct data blockSize).Coherent ∧
      (CodedOutputStream.construct data blockSize).data = data ∧
      (CodedOutputStream.construct data blockSize).cursor = 0 ∧
      (CodedOutputStream.construct data blockSize).hadError = false := by
  generalize start_eq : CodedOutputStream.mk (.construct data.length blockSize) data 0 0 false =
    start
  have constructed : CodedOutputStream.construct data blockSize =
      { start.refresh.2 with hadError := false } := by
    rw [← start_eq]
    rfl
  have coherent : start.Coherent := by
    rw [← start_eq]
    exact ⟨rfl, Nat.zero_le _, Nat.zero_le _, rfl⟩
  have cursor_eq : start.cursor = 0 := by
    rw [← start_eq]
    rfl
  have data_eq : start.data = data := by rw [← start_eq]
  rw [constructed]
  rcases coherent.refresh (by rw [← start_eq]) with
    ⟨next, refreshed, wrote⟩ | ⟨_, next, refreshed, next_coherent, same_data, same_cursor, _⟩
  · have next_data := wrote.data_eq coherent (by rw [cursor_eq]; exact Nat.zero_le _)
    have next_cursor := wrote.cursor_eq coherent
    rw [List.append_nil, List.length_nil, Nat.add_zero, written, List.take_append_drop] at next_data
    rw [cursor_eq, List.length_nil, Nat.zero_add, Nat.zero_min] at next_cursor
    rw [refreshed]
    exact ⟨⟨wrote.coherent.size_eq, wrote.coherent.position_le, wrote.coherent.buffer_le,
      wrote.coherent.total_eq⟩, next_data.trans data_eq, next_cursor, rfl⟩
  · rw [refreshed]
    exact ⟨⟨next_coherent.size_eq, next_coherent.position_le, next_coherent.buffer_le,
      next_coherent.total_eq⟩, same_data.trans data_eq, same_cursor.trans cursor_eq, rfl⟩

section Serialize

variable [Generated M] {schema : Schema M}

/-- Writing to an array that has room. -/
theorem SerializesAs.toArray (serializes : SerializesAs M schema) {message : M}
    (fits : (schema.encode message).length ≤ intMax) {target : List UInt8}
    (room : (schema.encode message).length ≤ target.length) :
    MessageLite.serializeWithCachedSizesToArray (cacheSizes message) target =
      some (schema.encode message ++ target.drop (schema.encode message).length) := by
  have size_eq := serializes.cached_eq message
  rw [serializes.byteSize_eq ((Nat.min_le_right _ _).trans fits)] at size_eq
  rcases coherent_construct (target.take (schema.encode message).length) (-1) with
    ⟨coherent, data_eq, cursor_eq, clean⟩
  rcases serializes.emits fits _ coherent with ⟨next, written, wrote⟩
  have whole := wrote.data_eq coherent
  have error_eq := wrote.error_eq
  rw [data_eq, cursor_eq, List.length_take, Nat.min_eq_left room, Nat.zero_add] at whole error_eq
  rw [clean, decide_eq_false (lt_irrefl _)] at error_eq
  have nothing : (CodedOutputStream.construct (target.take (schema.encode message).length)
      (-1)).written = [] := by
    rw [CodedOutputStream.written, cursor_eq, List.take_zero]
  have next_data : next.data = schema.encode message := by
    rw [whole le_rfl, nothing, List.nil_append, List.drop_of_length_le (List.length_take_le _ _),
      List.append_nil]
  simp only [MessageLite.serializeWithCachedSizesToArray, size_eq, written, Option.bind_some,
    error_eq, next_data]
  rfl

/-- The fast path writes what the slow path writes. -/
theorem SerializesAs.serializePartial (serializes : SerializesAs M schema) {message : M}
    (fits : (schema.encode message).length ≤ intMax) {output : CodedOutputStream}
    (coherent : output.Coherent) (clean : output.hadError = false) :
    ∃ next, MessageLite.serializePartialToCodedStream message output =
        some (!next.hadError, cacheSizes message, next) ∧
      Wrote output (schema.encode message) next := by
  have size_eq := serializes.cached_eq message
  have byteSize_eq := serializes.byteSize_eq ((Nat.min_le_right _ _).trans fits)
  rw [byteSize_eq] at size_eq
  simp only [MessageLite.serializePartialToCodedStream, size_eq, byteSize_eq]
  split
  · rename_i direct
    have buffer_le := coherent.buffer_le
    have position_le := coherent.position_le
    have data_size := coherent.size_eq
    have cursor_eq : output.cursor = output.output.position - output.bufferSize := rfl
    have room : (schema.encode message).length ≤ (output.data.drop output.cursor).length := by
      rw [List.length_drop]
      omega
    refine ⟨output.put (schema.encode message), ?_, coherent.put direct⟩
    have not_failed : (output.put (schema.encode message)).hadError = false := clean
    rw [serializes.toArray fits room, not_failed, List.drop_drop, Option.bind_some,
      if_neg (not_not_intro rfl), ← List.append_assoc]
    rfl
  · rcases serializes.emits fits output coherent with ⟨next, written, wrote⟩
    refine ⟨next, ?_, wrote⟩
    rw [written, Option.bind_some]
    cases error : next.hadError with
    | true => rfl
    | false =>
        have error_eq := wrote.error_eq
        have cursor_eq := wrote.cursor_eq coherent
        rw [error, clean, Bool.false_or] at error_eq
        have roomy := of_decide_eq_false error_eq.symm
        have count : next.byteCount - output.byteCount = (schema.encode message).length := by
          rw [wrote.coherent.byteCount_eq, coherent.byteCount_eq]
          omega
        simp only [Bool.false_eq_true, if_false, count, ne_eq, not_true_eq_false]
        rfl

end Serialize

end Gsp.Protobuf
