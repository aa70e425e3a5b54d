import Gsp.Protobuf.MessageLite

/-!
# The messages of MyPacket.proto

The seven messages with the fields of their generated code: the field's number,
its member and the tag that the code expects after it.
-/

namespace Gsp.MyPacket

open Gsp.Protobuf

/-- `MessageType`. -/
inductive PacketType where
  | csLogin
  | scLogin
  | csChat
  | scChat
  | csMove
  | scMove
deriving DecidableEq

/-- The number of a packet type. -/
def PacketType.code : PacketType → ℕ
  | .csLogin => 1
  | .scLogin => 2
  | .csChat => 3
  | .scChat => 4
  | .csMove => 5
  | .scMove => 6

/-- A player asks to come in. -/
structure LoginRequest where
  playerId : Option Int32
  cachedSize : ℕ
deriving DecidableEq

namespace LoginRequest

/-- The field `playerId`. -/
def playerIdMember : Member LoginRequest Int32 where
  get message := message.playerId
  set value message := { message with playerId := some value }

instance : Generated LoginRequest where
  construct := ⟨none, 0⟩
  fields := [.int32 1 playerIdMember none]
  getCachedSize message := message.cachedSize
  setCachedSize size message := { message with cachedSize := size }

end LoginRequest

/-- A place; the coordinates are the bits of floats. -/
structure Position where
  x : Option UInt32
  y : Option UInt32
  z : Option UInt32
  cachedSize : ℕ
deriving DecidableEq

namespace Position

/-- The field `x`. -/
def xMember : Member Position UInt32 where
  get message := message.x
  set value message := { message with x := some value }

/-- The field `y`. -/
def yMember : Member Position UInt32 where
  get message := message.y
  set value message := { message with y := some value }

/-- The field `z`. -/
def zMember : Member Position UInt32 where
  get message := message.z
  set value message := { message with z := some value }

instance : Generated Position where
  construct := ⟨none, none, none, 0⟩
  fields := [.float 1 xMember (some 21), .float 2 yMember (some 29), .float 3 zMember none]
  getCachedSize message := message.cachedSize
  setCachedSize size message := { message with cachedSize := size }

end Position

/-- The answer to a login. -/
structure LoginResult where
  playerId : Option Int32
  playerName : Option (List UInt8)
  playerPos : Option Position
  cachedSize : ℕ
deriving DecidableEq

namespace LoginResult

/-- The field `playerId`. -/
def playerIdMember : Member LoginResult Int32 where
  get message := message.playerId
  set value message := { message with playerId := some value }

/-- The field `playerName`. -/
def playerNameMember : Member LoginResult (List UInt8) where
  get message := message.playerName
  set value message := { message with playerName := some value }

/-- The field `playerPos`. -/
def playerPosMember : Member LoginResult Position where
  get message := message.playerPos
  set value message := { message with playerPos := some value }

instance : Generated LoginResult where
  construct := ⟨none, none, none, 0⟩
  fields :=
    [.int32 1 playerIdMember (some 18), .string 2 playerNameMember (some 26),
      .message 3 playerPosMember none]
  getCachedSize message := message.cachedSize
  setCachedSize size message := { message with cachedSize := size }

end LoginResult

/-- A player says something. -/
structure ChatRequest where
  playerId : Option Int32
  playerMessage : Option (List UInt8)
  cachedSize : ℕ
deriving DecidableEq

namespace ChatRequest

/-- The field `playerId`. -/
def playerIdMember : Member ChatRequest Int32 where
  get message := message.playerId
  set value message := { message with playerId := some value }

/-- The field `playerMessage`. -/
def playerMessageMember : Member ChatRequest (List UInt8) where
  get message := message.playerMessage
  set value message := { message with playerMessage := some value }

instance : Generated ChatRequest where
  construct := ⟨none, none, 0⟩
  fields := [.int32 1 playerIdMember (some 18), .string 2 playerMessageMember none]
  getCachedSize message := message.cachedSize
  setCachedSize size message := { message with cachedSize := size }

end ChatRequest

/-- A player has said something. -/
structure ChatResult where
  playerName : Option (List UInt8)
  playerMessage : Option (List UInt8)
  cachedSize : ℕ
deriving DecidableEq

namespace ChatResult

/-- The field `playerName`. -/
def playerNameMember : Member ChatResult (List UInt8) where
  get message := message.playerName
  set value message := { message with playerName := some value }

/-- The field `playerMessage`. -/
def playerMessageMember : Member ChatResult (List UInt8) where
  get message := message.playerMessage
  set value message := { message with playerMessage := some value }

instance : Generated ChatResult where
  construct := ⟨none, none, 0⟩
  fields := [.string 1 playerNameMember (some 18), .string 2 playerMessageMember none]
  getCachedSize message := message.cachedSize
  setCachedSize size message := { message with cachedSize := size }

end ChatResult

/-- A player asks to move. -/
structure MoveRequest where
  playerId : Option Int32
  playerPos : Option Position
  cachedSize : ℕ
deriving DecidableEq

namespace MoveRequest

/-- The field `playerId`. -/
def playerIdMember : Member MoveRequest Int32 where
  get message := message.playerId
  set value message := { message with playerId := some value }

/-- The field `playerPos`. -/
def playerPosMember : Member MoveRequest Position where
  get message := message.playerPos
  set value message := { message with playerPos := some value }

instance : Generated MoveRequest where
  construct := ⟨none, none, 0⟩
  fields := [.int32 1 playerIdMember (some 18), .message 2 playerPosMember none]
  getCachedSize message := message.cachedSize
  setCachedSize size message := { message with cachedSize := size }

end MoveRequest

/-- A player has moved. -/
structure MoveResult where
  playerId : Option Int32
  playerPos : Option Position
  cachedSize : ℕ
deriving DecidableEq

namespace MoveResult

/-- The field `playerId`. -/
def playerIdMember : Member MoveResult Int32 where
  get message := message.playerId
  set value message := { message with playerId := some value }

/-- The field `playerPos`. -/
def playerPosMember : Member MoveResult Position where
  get message := message.playerPos
  set value message := { message with playerPos := some value }

instance : Generated MoveResult where
  construct := ⟨none, none, 0⟩
  fields := [.int32 1 playerIdMember (some 18), .message 2 playerPosMember none]
  getCachedSize message := message.cachedSize
  setCachedSize size message := { message with cachedSize := size }

end MoveResult

end Gsp.MyPacket
