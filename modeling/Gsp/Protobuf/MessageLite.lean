import Gsp.Protobuf.CodedOutputStream

/-!
# Generated messages

The functions that are generated for each message, which differ only in their
fields, and those of `MessageLite` that call them. A member that has not been set
has no value. A message that could not be parsed is given up.

`_cached_size_` is a member of each message: `byteSize` computes a size and
`cacheSizes` is what the call leaves in the message and those nested in it.
-/

namespace Gsp.Protobuf

open CodedInputStream WireFormatLite

/-- The code that is generated for one field. -/
structure Field (M : Type) where
  number : UInt32
  wireType : WireType
  has : M → Bool
  /-- What follows the label of the field. -/
  parse : M → Reader M
  /-- The tag that is expected next; the last field expects the end. -/
  expected : Option UInt32
  /-- The size behind the tag. -/
  size : M → ℕ
  cacheSizes : M → M
  serialize : M → Writer
  /-- Merges the field of the second message into the first one. -/
  mergeFrom : M → M → M
  isInitialized : M → Bool

/-- A member with its has-bit. -/
structure Member (M V : Type) where
  get : M → Option V
  set : V → M → M

/-- What is generated for one message. -/
class Generated (M : Type) where
  /-- The message as it is constructed. -/
  construct : M
  fields : List (Field M)
  getCachedSize : M → ℕ
  setCachedSize : ℕ → M → M

section

variable {M : Type} [Generated M]

namespace Generated

/-- The code from the label of the first field on; true if the message has ended. -/
def parseFields : List (Field M) → M → Reader (M × Bool)
  | [], message => pure (message, false)
  | field :: fields, message => do
      let message ← field.parse message
      match field.expected with
      | some tag =>
          if ← expectTag tag then parseFields fields message
          else pure (message, false)
      | none =>
          let ended ← expectAtEnd
          pure (message, ended)

/-- The loop of `MergePartialFromCodedStream`, which runs at most `fuel` times. -/
def mergePartialLoop : ℕ → M → Reader M
  | 0, _ => fun _ => .undefined
  | fuel + 1, message => do
      let tag ← readTag
      if tag = 0 then pure message
      else
        match (fields : List (Field M)).dropWhile (·.number ≠ getTagFieldNumber tag) with
        | field :: rest =>
            if getTagWireType tag = some field.wireType then do
              let (message, ended) ← parseFields (field :: rest) message
              if ended then pure message else mergePartialLoop fuel message
            else if getTagWireType tag = some .endGroup then pure message
            else do
              skipField tag
              mergePartialLoop fuel message
        | [] =>
            if getTagWireType tag = some .endGroup then pure message
            else do
              skipField tag
              mergePartialLoop fuel message

/-- `MergePartialFromCodedStream`. -/
def mergePartialFromCodedStream (message : M) : Reader M := fun stream =>
  mergePartialLoop (stream.bytesLeft + 1) message stream

/-- `ByteSize`. -/
def byteSize (message : M) : ℕ :=
  ((fields : List (Field M)).map fun field =>
    if field.has message then 1 + field.size message else 0).sum

/-- What `ByteSize` leaves in the message. -/
def cacheSizes (message : M) : M :=
  setCachedSize (byteSize message) ((fields : List (Field M)).foldl
    (fun message field => if field.has message then field.cacheSizes message else message) message)

/-- `SerializeWithCachedSizes`. -/
def serializeWithCachedSizes (message : M) : Writer :=
  (fields : List (Field M)).foldr
    (fun field rest =>
      (if field.has message then field.serialize message else .skip).andThen rest) .skip

/-- `MergeFrom`. -/
def mergeFrom (message source : M) : M :=
  (fields : List (Field M)).foldl
    (fun message field => if field.has source then field.mergeFrom message source else message)
    message

/-- All fields are required. -/
def isInitialized (message : M) : Bool :=
  (fields : List (Field M)).all (·.has message) &&
    (fields : List (Field M)).all (·.isInitialized message)

/-- The cached size stays. -/
def clear (message : M) : M := setCachedSize (getCachedSize message) construct

end Generated

/-! ## MessageLite -/

namespace MessageLite

open Generated

/-- `ParseFromCodedStream`. -/
def parseFromCodedStream (message : M) : Reader M := do
  let message ← mergePartialFromCodedStream (clear message)
  if isInitialized message then pure message else fail

/-- Writes to an array of the cached size; none if the check for errors fails. -/
def serializeWithCachedSizesToArray (message : M) (target : List UInt8) : Option (List UInt8) :=
  (serializeWithCachedSizes message (.construct (target.take (getCachedSize message)) (-1))).bind
    fun codedOut =>
      if codedOut.hadError then none
      else some (codedOut.data ++ target.drop (getCachedSize message))

/-- Returns whether the message has been written; a failing check has no result. -/
def serializePartialToCodedStream (message : M) (output : CodedOutputStream) :
    Option (Bool × M × CodedOutputStream) :=
  let size := byteSize message
  let message := cacheSizes message
  if size ≤ output.bufferSize then
    (serializeWithCachedSizesToArray message (output.data.drop output.cursor)).bind fun data =>
      if getCachedSize message ≠ size then none
      else some (true, message, { output with
        data := output.data.take output.cursor ++ data
        bufferSize := output.bufferSize - size })
  else
    let originalByteCount := output.byteCount
    (serializeWithCachedSizes message output).bind fun output =>
      if output.hadError then some (false, message, output)
      else if output.byteCount - originalByteCount ≠ size then none
      else some (true, message, output)

/-- Messages are serialized once all their fields are set. -/
def serializeToCodedStream (message : M) (output : CodedOutputStream) :
    Option (Bool × M × CodedOutputStream) :=
  if isInitialized message then serializePartialToCodedStream message output else none

end MessageLite

end

/-! ## Fields -/

namespace Field

variable {M : Type}

/-- `ReadPrimitive` of an `int32`. -/
def readInt32 : Reader Int32 := do
  let temp ← readVarint32
  pure temp.toInt32

/-- An `int32` field. -/
def int32 (number : UInt32) (member : Member M Int32) (expected : Option UInt32) : Field M where
  number := number
  wireType := .varint
  has message := (member.get message).isSome
  parse message := do
    let value ← readInt32
    pure (member.set value message)
  expected := expected
  size message := int32Size ((member.get message).getD 0)
  cacheSizes message := message
  serialize message := writeInt32 number ((member.get message).getD 0)
  mergeFrom message source := member.set ((member.get source).getD 0) message
  isInitialized _ := true

/-- A float is the word of its bits. -/
def float (number : UInt32) (member : Member M UInt32) (expected : Option UInt32) : Field M where
  number := number
  wireType := .fixed32
  has message := (member.get message).isSome
  parse message := do
    let value ← readLittleEndian32
    pure (member.set value message)
  expected := expected
  size _ := 4
  cacheSizes message := message
  serialize message := writeFloat number ((member.get message).getD 0)
  mergeFrom message source := member.set ((member.get source).getD 0) message
  isInitialized _ := true

/-- `WireFormatLite::ReadString`. -/
def readStringField : Reader (List UInt8) := do
  let length ← readVarint32
  readString length.toInt32.toInt

/-- A `string` field. -/
def string (number : UInt32) (member : Member M (List UInt8)) (expected : Option UInt32) :
    Field M where
  number := number
  wireType := .lengthDelimited
  has message := (member.get message).isSome
  parse message := do
    let value ← readStringField
    pure (member.set value message)
  expected := expected
  size message := stringSize ((member.get message).getD [])
  cacheSizes message := message
  serialize message := writeString number ((member.get message).getD [])
  mergeFrom message source := member.set ((member.get source).getD []) message
  isInitialized _ := true

section Nested

open Generated

variable {N : Type} [Generated N]

/-- `ReadMessageNoVirtual`. -/
def readMessageNoVirtual (value : N) : Reader N := do
  let length ← readVarint32
  incrementRecursionDepth
  let limit ← pushLimit length.toInt32.toInt
  let value ← mergePartialFromCodedStream value
  consumedEntireMessage
  popLimit limit
  decrementRecursionDepth
  pure value

/-- A nested message, which is constructed when it is first asked for. -/
def message (number : UInt32) (member : Member M N) (expected : Option UInt32) : Field M where
  number := number
  wireType := .lengthDelimited
  has message := (member.get message).isSome
  parse message := do
    let value ← readMessageNoVirtual ((member.get message).getD construct)
    pure (member.set value message)
  expected := expected
  size message := lengthDelimitedSize (byteSize ((member.get message).getD construct))
  cacheSizes message :=
    member.set (Generated.cacheSizes ((member.get message).getD construct)) message
  serialize message :=
    writeMessage number (getCachedSize ((member.get message).getD construct))
      (serializeWithCachedSizes ((member.get message).getD construct))
  mergeFrom message source :=
    member.set (Generated.mergeFrom ((member.get message).getD construct)
      ((member.get source).getD construct)) message
  isInitialized message :=
    match member.get message with
    | some value => Generated.isInitialized value
    | none => true

end Nested

end Field

end Gsp.Protobuf
