import Gsp.Protobuf.MessageLite
import Gsp.Protobuf.WireFormat

/-!
# The format of messages

What the format says about a message, apart from the code that is generated for
it: a schema is the list of the fields, each with the bytes of its value and the
parser that reads them into a message. Records may stand in any order, and the
ones that no field has are skipped.
-/

namespace Gsp.Protobuf.Wire

open WireFormatLite

/-! ## Values -/

/-- How the values of a type stand behind their tag. -/
structure Codec (V : Type) where
  wireType : WireType
  encode : V → List UInt8
  /-- Reads a value into the one that is there, where messages may still nest so deep. -/
  read : ℕ → Option V → Parser V
  merge : Option V → V → V

/-- The bits of a number that has been extended to 64 bits. -/
theorem toNat_extended (value : Int32) :
    value.toInt64.toUInt64.toNat =
      if value < 0 then value.toUInt32.toNat + (2 ^ 64 - 2 ^ 32) else value.toUInt32.toNat := by
  have narrow : value.toInt = if 2 * value.toUInt32.toNat < 2 ^ 32 then
      (value.toUInt32.toNat : ℤ) else (value.toUInt32.toNat : ℤ) - (2 ^ 32 : ℕ) :=
    BitVec.toInt_eq_toNat_cond value.toBitVec
  have wide : value.toInt64.toInt = if 2 * value.toInt64.toUInt64.toNat < 2 ^ 64 then
      (value.toInt64.toUInt64.toNat : ℤ)
        else (value.toInt64.toUInt64.toNat : ℤ) - (2 ^ 64 : ℕ) :=
    BitVec.toInt_eq_toNat_cond value.toInt64.toBitVec
  have negative_iff : value < 0 ↔ value.toInt < 0 := Int32.lt_iff_toInt_lt
  have narrow_lt := value.toUInt32.toNat_lt
  have wide_lt := value.toInt64.toUInt64.toNat_lt
  rw [Int32.toInt_toInt64] at wide
  simp only [negative_iff]
  split_ifs at narrow wide ⊢ <;> omega

namespace Codec

/-- A negative number is extended to 64 bits. -/
def int32 : Codec Int32 where
  wireType := .varint
  encode value := Varint.encode value.toInt64.toUInt64.toNat
  read _ _ := do
    let number ← varint32
    pure number.toInt32
  merge _ value := value

/-- The bits of a float. -/
def float : Codec UInt32 where
  wireType := .fixed32
  encode value := Pointer.encode 4 value.toNat
  read _ _ := fixed32
  merge _ value := value

/-- A string after its length. -/
def string : Codec (List UInt8) where
  wireType := .lengthDelimited
  encode value := Varint.encode value.length ++ value
  read _ _ := delimited
  merge _ value := value

end Codec

/-! ## Messages -/

/-- What the format says about one field of a message. -/
structure Rule (M : Type) where
  tag : UInt32
  /-- None if the field has not been set. -/
  encode : M → Option (List UInt8)
  read : ℕ → M → Parser M
  /-- Puts the field of the second message into the first one. -/
  merge : M → M → M

/-- A field with a value of this format. -/
def Rule.of {M V : Type} (number : UInt32) (codec : Codec V) (member : Member M V) : Rule M where
  tag := makeTag number codec.wireType
  encode message := (member.get message).map codec.encode
  read depth message := do
    let value ← codec.read depth (member.get message)
    pure (member.set value message)
  merge message source :=
    match member.get source with
    | some value => member.set (codec.merge (member.get message) value) message
    | none => message

/-- The bytes of a field with its tag. -/
def Rule.record {M : Type} (rule : Rule M) (message : M) : List UInt8 :=
  match rule.encode message with
  | some bytes => Varint.encode rule.tag.toNat ++ bytes
  | none => []

theorem Rule.record_none {M : Type} {rule : Rule M} {message : M}
    (unset : rule.encode message = none) :
    rule.record message = [] := by
  rw [Rule.record, unset]

theorem Rule.record_some {M : Type} {rule : Rule M} {message : M} {bytes : List UInt8}
    (encoded : rule.encode message = some bytes) :
    rule.record message = Varint.encode rule.tag.toNat ++ bytes := by
  rw [Rule.record, encoded]

/-- The fields of a message in the order of the file. -/
abbrev Schema (M : Type) : Type := List (Rule M)

namespace Schema

variable {M : Type}

/-- The bytes of a message. -/
def encode (schema : Schema M) (message : M) : List UInt8 :=
  schema.flatMap fun rule => rule.record message

/-- The fields that a second message has replace those of the first. -/
def merge (schema : Schema M) (message source : M) : M :=
  schema.foldl (fun message rule => rule.merge message source) message

/-- Reads at most `fuel` records into a message. -/
def readLoop (schema : Schema M) (depth : ℕ) : ℕ → M → Parser (M × Ending)
  | 0, _ => refuse
  | fuel + 1, message => fun bytes =>
      match front bytes with
      | .atEnd => some ((message, .atEnd), [])
      | .stopped => some ((message, .stopped), [])
      | .tag tag rest =>
          match schema.find? (·.tag = tag) with
          | some rule =>
              (do
                let message ← rule.read depth message
                readLoop schema depth fuel message) rest
          | none =>
              if getTagWireType tag = some .endGroup then some ((message, .endGroup tag), rest)
              else
                (do
                  skipField depth tag
                  readLoop schema depth fuel message) rest

/-- Reads records into a message up to an end. -/
def read (schema : Schema M) (depth : ℕ) (message : M) : Parser (M × Ending) := fun bytes =>
  readLoop schema depth (bytes.length + 1) message bytes

/-- What bytes that should be a message are read as. -/
def parse (schema : Schema M) (isInitialized : M → Bool) (message : M) (bytes : List UInt8) :
    Option M :=
  match schema.read CodedInputStream.defaultRecursionLimit message bytes with
  | some ((message, _), _) => if isInitialized message then some message else none
  | none => none

theorem find_of_mem {schema : Schema M} (distinct : (schema.map (·.tag)).Nodup) {rule : Rule M}
    (mem : rule ∈ schema) :
    schema.find? (·.tag = rule.tag) = some rule := by
  induction schema with
  | nil => cases mem
  | cons first schema ih =>
      rw [List.map_cons, List.nodup_cons] at distinct
      rcases List.mem_cons.mp mem with rfl | mem
      · exact List.find?_cons_of_pos (by simp)
      · have other : first.tag ≠ rule.tag := fun same =>
          distinct.1 (same ▸ List.mem_map_of_mem mem)
        rw [List.find?_cons_of_neg (by simpa using other)]
        exact ih distinct.2 mem

section ReadLoop

variable {schema : Schema M} {depth fuel : ℕ} {message : M} {bytes rest : List UInt8}
  {tag : UInt32}

theorem readLoop_atEnd (found : front bytes = .atEnd) :
    readLoop schema depth (fuel + 1) message bytes = some ((message, .atEnd), []) := by
  simp only [readLoop, found]

theorem readLoop_stopped (found : front bytes = .stopped) :
    readLoop schema depth (fuel + 1) message bytes = some ((message, .stopped), []) := by
  simp only [readLoop, found]

theorem readLoop_known {rule : Rule M} (found : front bytes = .tag tag rest)
    (known : schema.find? (·.tag = tag) = some rule) :
    readLoop schema depth (fuel + 1) message bytes =
      (rule.read depth message >>= readLoop schema depth fuel) rest := by
  simp only [readLoop, found, known]

theorem readLoop_endGroup (found : front bytes = .tag tag rest)
    (unknown : schema.find? (·.tag = tag) = none) (ends : getTagWireType tag = some .endGroup) :
    readLoop schema depth (fuel + 1) message bytes = some ((message, .endGroup tag), rest) := by
  simp only [readLoop, found, unknown, if_pos ends]

theorem readLoop_unknown (found : front bytes = .tag tag rest)
    (unknown : schema.find? (·.tag = tag) = none)
    (goes_on : getTagWireType tag ≠ some .endGroup) :
    readLoop schema depth (fuel + 1) message bytes =
      (skipField depth tag >>= fun _ => readLoop schema depth fuel message) rest := by
  simp only [readLoop, found, unknown, if_neg goes_on]

end ReadLoop

end Schema

/-- A message within so many bytes, which has to end with them. -/
def within {N : Type} (length : ℕ) (parse : Parser (N × Ending)) : Parser N := fun bytes =>
  match parse (bytes.take length) with
  | some ((value, .atEnd), _) => some (value, bytes.drop length)
  | _ => none

/-- A message behind its length, which may be cut off. -/
def Codec.message {N : Type} (construct : N) (schema : Schema N) : Codec N where
  wireType := .lengthDelimited
  encode value := Varint.encode (schema.encode value).length ++ schema.encode value
  read depth old := do
    let length ← varint32
    match depth with
    | 0 => refuse
    | depth + 1 => within length.toNat (schema.read depth (old.getD construct))
  merge old value := schema.merge (old.getD construct) value

end Gsp.Protobuf.Wire
