import Gsp.MyPacket.Messages
import Gsp.Protobuf.Merging
import Gsp.Protobuf.Parsing
import Gsp.Protobuf.Serializing

/-!
# The schemas of MyPacket.proto

The seven messages by name, with the format that the file gives to each.
-/

namespace Gsp.MyPacket

open Gsp.Protobuf Wire

/-- The format of `LoginRequest`. -/
def LoginRequest.schema : Schema LoginRequest := [.of 1 .int32 playerIdMember]

/-- The format of `Position`. -/
def Position.schema : Schema Position :=
  [.of 1 .float xMember, .of 2 .float yMember, .of 3 .float zMember]

/-- The format of `LoginResult`. -/
def LoginResult.schema : Schema LoginResult :=
  [.of 1 .int32 playerIdMember, .of 2 .string playerNameMember,
    .of 3 (.message Generated.construct Position.schema) playerPosMember]

/-- The format of `ChatRequest`. -/
def ChatRequest.schema : Schema ChatRequest :=
  [.of 1 .int32 playerIdMember, .of 2 .string playerMessageMember]

/-- The format of `ChatResult`. -/
def ChatResult.schema : Schema ChatResult :=
  [.of 1 .string playerNameMember, .of 2 .string playerMessageMember]

/-- The format of `MoveRequest`. -/
def MoveRequest.schema : Schema MoveRequest :=
  [.of 1 .int32 playerIdMember,
    .of 2 (.message Generated.construct Position.schema) playerPosMember]

/-- The format of `MoveResult`. -/
def MoveResult.schema : Schema MoveResult :=
  [.of 1 .int32 playerIdMember,
    .of 2 (.message Generated.construct Position.schema) playerPosMember]

/-- The messages of the file. -/
inductive MessageName where
  | loginRequest
  | position
  | loginResult
  | chatRequest
  | chatResult
  | moveRequest
  | moveResult
deriving DecidableEq

namespace MessageName

/-- The message of a name. -/
abbrev Message : MessageName → Type
  | .loginRequest => LoginRequest
  | .position => Position
  | .loginResult => LoginResult
  | .chatRequest => ChatRequest
  | .chatResult => ChatResult
  | .moveRequest => MoveRequest
  | .moveResult => MoveResult

instance (name : MessageName) : Generated name.Message :=
  match name with
  | .loginRequest => inferInstanceAs (Generated LoginRequest)
  | .position => inferInstanceAs (Generated Position)
  | .loginResult => inferInstanceAs (Generated LoginResult)
  | .chatRequest => inferInstanceAs (Generated ChatRequest)
  | .chatResult => inferInstanceAs (Generated ChatResult)
  | .moveRequest => inferInstanceAs (Generated MoveRequest)
  | .moveResult => inferInstanceAs (Generated MoveResult)

/-- The format of a message. -/
def schema : (name : MessageName) → Schema name.Message
  | .loginRequest => LoginRequest.schema
  | .position => Position.schema
  | .loginResult => LoginResult.schema
  | .chatRequest => ChatRequest.schema
  | .chatResult => ChatResult.schema
  | .moveRequest => MoveRequest.schema
  | .moveResult => MoveResult.schema

end MessageName

/-! ## Parsing -/

section Parsing

open Field

theorem LoginRequest.parsesAs : ParsesAs LoginRequest schema where
  fields_read := .cons (readsAs_int32 (by decide) _ (by decide)) .nil
  chained := rfl
  distinct := by decide

theorem Position.parsesAs : ParsesAs Position schema where
  fields_read :=
    .cons (readsAs_float (by decide) _ (by decide))
      (.cons (readsAs_float (by decide) _ (by decide))
        (.cons (readsAs_float (by decide) _ (by decide)) .nil))
  chained := ⟨rfl, rfl, rfl⟩
  distinct := by decide

theorem LoginResult.parsesAs : ParsesAs LoginResult schema where
  fields_read :=
    .cons (readsAs_int32 (by decide) _ (by decide))
      (.cons (readsAs_string (by decide) _ (by decide))
        (.cons (readsAs_message (by decide) Position.parsesAs _ (by decide)) .nil))
  chained := ⟨rfl, rfl, rfl⟩
  distinct := by decide

theorem ChatRequest.parsesAs : ParsesAs ChatRequest schema where
  fields_read :=
    .cons (readsAs_int32 (by decide) _ (by decide))
      (.cons (readsAs_string (by decide) _ (by decide)) .nil)
  chained := ⟨rfl, rfl⟩
  distinct := by decide

theorem ChatResult.parsesAs : ParsesAs ChatResult schema where
  fields_read :=
    .cons (readsAs_string (by decide) _ (by decide))
      (.cons (readsAs_string (by decide) _ (by decide)) .nil)
  chained := ⟨rfl, rfl⟩
  distinct := by decide

theorem MoveRequest.parsesAs : ParsesAs MoveRequest schema where
  fields_read :=
    .cons (readsAs_int32 (by decide) _ (by decide))
      (.cons (readsAs_message (by decide) Position.parsesAs _ (by decide)) .nil)
  chained := ⟨rfl, rfl⟩
  distinct := by decide

theorem MoveResult.parsesAs : ParsesAs MoveResult schema where
  fields_read :=
    .cons (readsAs_int32 (by decide) _ (by decide))
      (.cons (readsAs_message (by decide) Position.parsesAs _ (by decide)) .nil)
  chained := ⟨rfl, rfl⟩
  distinct := by decide

/-- The generated code expects the tags that follow each other in the schema. -/
theorem MessageName.parsesAs (name : MessageName) : ParsesAs name.Message name.schema := by
  cases name with
  | loginRequest => exact LoginRequest.parsesAs
  | position => exact Position.parsesAs
  | loginResult => exact LoginResult.parsesAs
  | chatRequest => exact ChatRequest.parsesAs
  | chatResult => exact ChatResult.parsesAs
  | moveRequest => exact MoveRequest.parsesAs
  | moveResult => exact MoveResult.parsesAs

end Parsing

/-! ## Serializing -/

section Serializing

open Field

theorem LoginRequest.cacheSizes_eq (message : LoginRequest) :
    Generated.cacheSizes message = { message with cachedSize := Generated.byteSize message } := by
  rcases message with ⟨_ | _, _⟩ <;> rfl

theorem LoginRequest.serializesAs : SerializesAs LoginRequest schema where
  fields_write :=
    .cons (writesAs_int32 _ (by decide) fun message => by rw [cacheSizes_eq]; rfl) .nil
  cached_eq message := by rw [cacheSizes_eq]; rfl

theorem Position.cacheSizes_eq (message : Position) :
    Generated.cacheSizes message = { message with cachedSize := Generated.byteSize message } := by
  rcases message with ⟨_ | _, _ | _, _ | _, _⟩ <;> rfl

theorem Position.serializesAs : SerializesAs Position schema where
  fields_write :=
    .cons (writesAs_float _ (by decide) fun message => by rw [cacheSizes_eq]; rfl)
      (.cons (writesAs_float _ (by decide) fun message => by rw [cacheSizes_eq]; rfl)
        (.cons (writesAs_float _ (by decide) fun message => by rw [cacheSizes_eq]; rfl) .nil))
  cached_eq message := by rw [cacheSizes_eq]; rfl

theorem LoginResult.cacheSizes_eq (message : LoginResult) :
    Generated.cacheSizes message = { message with
      playerPos := message.playerPos.map Generated.cacheSizes
      cachedSize := Generated.byteSize message } := by
  rcases message with ⟨_ | _, _ | _, _ | _, _⟩ <;> rfl

theorem LoginResult.serializesAs : SerializesAs LoginResult schema where
  fields_write :=
    .cons (writesAs_int32 _ (by decide) fun message => by rw [cacheSizes_eq]; rfl)
      (.cons (writesAs_string _ (by decide) fun message => by rw [cacheSizes_eq]; rfl)
        (.cons (writesAs_message Position.serializesAs _ (by decide)
            fun message => by rw [cacheSizes_eq]; rfl) .nil))
  cached_eq message := by rw [cacheSizes_eq]; rfl

theorem ChatRequest.cacheSizes_eq (message : ChatRequest) :
    Generated.cacheSizes message = { message with cachedSize := Generated.byteSize message } := by
  rcases message with ⟨_ | _, _ | _, _⟩ <;> rfl

theorem ChatRequest.serializesAs : SerializesAs ChatRequest schema where
  fields_write :=
    .cons (writesAs_int32 _ (by decide) fun message => by rw [cacheSizes_eq]; rfl)
      (.cons (writesAs_string _ (by decide) fun message => by rw [cacheSizes_eq]; rfl) .nil)
  cached_eq message := by rw [cacheSizes_eq]; rfl

theorem ChatResult.cacheSizes_eq (message : ChatResult) :
    Generated.cacheSizes message = { message with cachedSize := Generated.byteSize message } := by
  rcases message with ⟨_ | _, _ | _, _⟩ <;> rfl

theorem ChatResult.serializesAs : SerializesAs ChatResult schema where
  fields_write :=
    .cons (writesAs_string _ (by decide) fun message => by rw [cacheSizes_eq]; rfl)
      (.cons (writesAs_string _ (by decide) fun message => by rw [cacheSizes_eq]; rfl) .nil)
  cached_eq message := by rw [cacheSizes_eq]; rfl

theorem MoveRequest.cacheSizes_eq (message : MoveRequest) :
    Generated.cacheSizes message = { message with
      playerPos := message.playerPos.map Generated.cacheSizes
      cachedSize := Generated.byteSize message } := by
  rcases message with ⟨_ | _, _ | _, _⟩ <;> rfl

theorem MoveRequest.serializesAs : SerializesAs MoveRequest schema where
  fields_write :=
    .cons (writesAs_int32 _ (by decide) fun message => by rw [cacheSizes_eq]; rfl)
      (.cons (writesAs_message Position.serializesAs _ (by decide)
          fun message => by rw [cacheSizes_eq]; rfl) .nil)
  cached_eq message := by rw [cacheSizes_eq]; rfl

theorem MoveResult.cacheSizes_eq (message : MoveResult) :
    Generated.cacheSizes message = { message with
      playerPos := message.playerPos.map Generated.cacheSizes
      cachedSize := Generated.byteSize message } := by
  rcases message with ⟨_ | _, _ | _, _⟩ <;> rfl

theorem MoveResult.serializesAs : SerializesAs MoveResult schema where
  fields_write :=
    .cons (writesAs_int32 _ (by decide) fun message => by rw [cacheSizes_eq]; rfl)
      (.cons (writesAs_message Position.serializesAs _ (by decide)
          fun message => by rw [cacheSizes_eq]; rfl) .nil)
  cached_eq message := by rw [cacheSizes_eq]; rfl

/-- Every message writes itself as its schema. -/
theorem MessageName.serializesAs (name : MessageName) :
    SerializesAs name.Message name.schema := by
  cases name with
  | loginRequest => exact LoginRequest.serializesAs
  | position => exact Position.serializesAs
  | loginResult => exact LoginResult.serializesAs
  | chatRequest => exact ChatRequest.serializesAs
  | chatResult => exact ChatResult.serializesAs
  | moveRequest => exact MoveRequest.serializesAs
  | moveResult => exact MoveResult.serializesAs

end Serializing

/-! ## Merging -/

section Merging

open Field

theorem LoginRequest.mergesAs : MergesAs LoginRequest schema :=
  .cons (mergesAs_int32 _) .nil

theorem Position.mergesAs : MergesAs Position schema :=
  .cons (mergesAs_float _) (.cons (mergesAs_float _) (.cons (mergesAs_float _) .nil))

theorem LoginResult.mergesAs : MergesAs LoginResult schema :=
  .cons (mergesAs_int32 _)
    (.cons (mergesAs_string _) (.cons (mergesAs_message Position.mergesAs _) .nil))

theorem ChatRequest.mergesAs : MergesAs ChatRequest schema :=
  .cons (mergesAs_int32 _) (.cons (mergesAs_string _) .nil)

theorem ChatResult.mergesAs : MergesAs ChatResult schema :=
  .cons (mergesAs_string _) (.cons (mergesAs_string _) .nil)

theorem MoveRequest.mergesAs : MergesAs MoveRequest schema :=
  .cons (mergesAs_int32 _) (.cons (mergesAs_message Position.mergesAs _) .nil)

theorem MoveResult.mergesAs : MergesAs MoveResult schema :=
  .cons (mergesAs_int32 _) (.cons (mergesAs_message Position.mergesAs _) .nil)

/-- Every message merges itself as its schema. -/
theorem MessageName.mergesAs (name : MessageName) : MergesAs name.Message name.schema := by
  cases name with
  | loginRequest => exact LoginRequest.mergesAs
  | position => exact Position.mergesAs
  | loginResult => exact LoginResult.mergesAs
  | chatRequest => exact ChatRequest.mergesAs
  | chatResult => exact ChatResult.mergesAs
  | moveRequest => exact MoveRequest.mergesAs
  | moveResult => exact MoveResult.mergesAs

end Merging

/-! ## Reading back -/

section Lawful

open Codec

theorem LoginRequest.lawful : schema.Lawful 0 where
  rules rule mem := by
    simp only [schema, List.mem_cons, List.not_mem_nil, or_false] at mem
    subst mem
    exact Rule.lawful_of _ lawful_int32 (by decide)
  distinct := by decide

/-- A position has no message inside. -/
theorem Position.lawful : schema.Lawful 0 where
  rules rule mem := by
    simp only [schema, List.mem_cons, List.not_mem_nil, or_false] at mem
    rcases mem with rfl | rfl | rfl
    · exact Rule.lawful_of _ lawful_float (by decide)
    · exact Rule.lawful_of _ lawful_float (by decide)
    · exact Rule.lawful_of _ lawful_float (by decide)
  distinct := by decide

/-- A login result has a position inside. -/
theorem LoginResult.lawful : schema.Lawful 1 where
  rules rule mem := by
    simp only [schema, List.mem_cons, List.not_mem_nil, or_false] at mem
    rcases mem with rfl | rfl | rfl
    · exact Rule.lawful_of _ (lawful_int32.mono (by decide)) (by decide)
    · exact Rule.lawful_of _ (lawful_string.mono (by decide)) (by decide)
    · exact Rule.lawful_of _ (lawful_message Position.lawful) (by decide)
  distinct := by decide

theorem ChatRequest.lawful : schema.Lawful 0 where
  rules rule mem := by
    simp only [schema, List.mem_cons, List.not_mem_nil, or_false] at mem
    rcases mem with rfl | rfl
    · exact Rule.lawful_of _ lawful_int32 (by decide)
    · exact Rule.lawful_of _ lawful_string (by decide)
  distinct := by decide

theorem ChatResult.lawful : schema.Lawful 0 where
  rules rule mem := by
    simp only [schema, List.mem_cons, List.not_mem_nil, or_false] at mem
    rcases mem with rfl | rfl
    · exact Rule.lawful_of _ lawful_string (by decide)
    · exact Rule.lawful_of _ lawful_string (by decide)
  distinct := by decide

theorem MoveRequest.lawful : schema.Lawful 1 where
  rules rule mem := by
    simp only [schema, List.mem_cons, List.not_mem_nil, or_false] at mem
    rcases mem with rfl | rfl
    · exact Rule.lawful_of _ (lawful_int32.mono (by decide)) (by decide)
    · exact Rule.lawful_of _ (lawful_message Position.lawful) (by decide)
  distinct := by decide

theorem MoveResult.lawful : schema.Lawful 1 where
  rules rule mem := by
    simp only [schema, List.mem_cons, List.not_mem_nil, or_false] at mem
    rcases mem with rfl | rfl
    · exact Rule.lawful_of _ (lawful_int32.mono (by decide)) (by decide)
    · exact Rule.lawful_of _ (lawful_message Position.lawful) (by decide)
  distinct := by decide

/-- The messages nest once. -/
theorem MessageName.lawful (name : MessageName) : name.schema.Lawful 1 := by
  cases name with
  | loginRequest => exact LoginRequest.lawful.mono (by decide)
  | position => exact Position.lawful.mono (by decide)
  | loginResult => exact LoginResult.lawful
  | chatRequest => exact ChatRequest.lawful.mono (by decide)
  | chatResult => exact ChatResult.lawful.mono (by decide)
  | moveRequest => exact MoveRequest.lawful
  | moveResult => exact MoveResult.lawful

end Lawful

end Gsp.MyPacket
