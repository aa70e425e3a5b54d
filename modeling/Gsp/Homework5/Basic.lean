import Mathlib.Logic.Function.Basic
import Gsp.CircularBuffer.Basic
import Gsp.Lib.Tally

/-!
# The data of the echo server

Sessions, overlapped contexts, the session pool and the worker threads of the
server, each with the history that its properties speak about.

A session keeps its contexts in two lists: those handed to Winsock, and those a
function of the server holds because it has just created them or is handling
their completion. What has happened to a session is its `trace`, latest event
first. Of a socket only its attachment to the completion port is kept; addresses
and log texts decide nothing and are left out; a Winsock call is represented by
whether it succeeds.
-/

namespace Gsp.Homework5

/-- What an overlapped call is for. -/
inductive IOType where
  | ioNone
  | ioSend
  | ioRecv
  | ioRecvZero
  | ioAccept
  | ioDisconnect
  | ioConnect
deriving DecidableEq

/-- Why a session is disconnected. -/
inductive DisconnectReason where
  | drNone
  | drActive
  | drOnConnectError
  | drIoRequestError
  | drCompletionError
  | drSendFlushError
deriving DecidableEq

/-- A length and an offset into a buffer of the owning session. -/
structure WsaBuf where
  len : ℕ
  buf : Option ℕ
deriving DecidableEq

/-- A context; `address` tells the contexts of a session apart and `posted` is
what a send was given to transmit. -/
structure OverlappedIOContext where
  address : ℕ
  mIoType : IOType
  mWsaBuf : WsaBuf
  mDisconnectReason : DisconnectReason
  posted : List UInt8
deriving DecidableEq

/-- The fields of a session that its functions use. -/
structure Session where
  mRecvBuffer : CircularBuffer
  mSendBuffer : CircularBuffer
  mSendPendingCount : ℤ
  mRefCount : ℤ
  mConnected : Bool

/-- What happens to a session. -/
inductive Event where
  | issued
  | contextCreated (address : ℕ) (mIoType : IOType)
  | contextDeleted (address : ℕ)
  | acceptExFailed
  | acceptPreRecvFailed
  | disconnectExFailed
  | connectCompleted
  | received (bytes : List UInt8)
  | sendCompleted (bytes : List UInt8)
  | sendFailed
  | disconnectCompleted
  | returned (session : Session)

/-- `attached` is whether the session's socket belongs to the completion port. -/
structure SessionState extends Session where
  attached : Bool
  inFlight : List OverlappedIOContext
  handled : List OverlappedIOContext
  trace : List Event

/-- `MAX_CONNECTION`. -/
def maxConnection : ℕ := 10000

/-- `CLIENT_BUFSIZE`. -/
def clientBufSize : ℕ := 65536

/-- `SERVER_BUFSIZE`. -/
def serverBufSize : ℕ := 65536 * 4

/-- A client session by its place among those the manager prepares. -/
abbrev ClientId : Type := Fin maxConnection

/-- A pooled client session, or one of the sessions with other servers. -/
inductive SessionId where
  | client (index : ClientId)
  | server (index : ℕ)
deriving DecidableEq

/-- The free list is written from its back, where it grows and shrinks. -/
structure ClientSessionManager where
  mFreeSessionList : List ClientId
  mCurrentIssueCount : ℕ
  mCurrentReturnCount : ℕ

/-- A pointer in `LSendRequestSessionList`, with the number of the connection it
was queued for. -/
structure SendRequest where
  session : SessionId
  connection : ℕ
deriving DecidableEq

/-- Where a worker stands between two steps: in the loops of `Run`, or inside the
`IO_RECV` branch after `RecvCompletion` or after `EchoBack`. -/
inductive Job where
  | idle
  | recvCompleted (session : SessionId) (context : OverlappedIOContext)
  | echoed (session : SessionId) (context : OverlappedIOContext)
deriving DecidableEq

/-- The queue of a worker, and where the worker stands. -/
structure Worker where
  LSendRequestSessionList : List SendRequest
  job : Job

/-- Which Winsock calls of a step succeed (or stay pending). -/
structure Winsock where
  acceptEx : Bool
  connectEx : Bool
  disconnectEx : Bool
  wsaRecv : Bool
  wsaSend : Bool
  updateAcceptContext : Bool
  updateConnectContext : Bool
  tcpNoDelay : Bool
  soRcvBuf : Bool
  getPeerName : Bool
  createIoCompletionPort : Bool
  bind : Bool

/-- What `GetQueuedCompletionStatus` reports: its result, the bytes transferred
and, for a receive, the bytes themselves. -/
structure Completion where
  ret : Bool
  dwTransferred : ℕ
  data : List UInt8

/-- The assertions of the server, by the function they stand in. -/
inductive CrashAssert where
  | addRef
  | releaseRef
  | deleteIoContext
  | returnClientSession
  | acceptCompletion
  | connectRequest
  | connectCompletion
  | doIocpJob
deriving DecidableEq

namespace Session

/-- A constructed session, on two raw blocks. -/
def construct (rawRecv rawSend : ℕ → UInt8) (bufSize : ℕ) : Session where
  mRecvBuffer := .construct rawRecv bufSize
  mSendBuffer := .construct rawSend bufSize
  mSendPendingCount := 0
  mRefCount := 0
  mConnected := false

end Session

/-! ## Reading the history -/

/-- The session is out of the pool. -/
def issued : List Event → Bool
  | [] => false
  | .issued :: _ => true
  | .returned _ :: _ => false
  | _ :: earlier => issued earlier

/-- How often the session has been issued; this numbers its connections. -/
def connections : List Event → ℕ
  | [] => 0
  | .issued :: earlier => connections earlier + 1
  | _ :: earlier => connections earlier

/-- The reference held for having been issued, until the disconnect completes. -/
def issueRef : List Event → ℕ
  | [] => 0
  | .issued :: _ => 1
  | .disconnectCompleted :: _ => 0
  | .returned _ :: _ => 0
  | _ :: earlier => issueRef earlier

/-- The disconnect contexts of the current connection. -/
def disconnectsMade : List Event → ℕ
  | [] => 0
  | .issued :: _ => 0
  | .contextCreated _ .ioDisconnect :: earlier => disconnectsMade earlier + 1
  | _ :: earlier => disconnectsMade earlier

/-- How often the session has been returned since it was last issued. -/
def returnsMade : List Event → ℕ
  | [] => 0
  | .issued :: _ => 0
  | .returned _ :: earlier => returnsMade earlier + 1
  | _ :: earlier => returnsMade earlier

/-- The addresses of all contexts created so far. -/
def created : List Event → List ℕ
  | [] => []
  | .contextCreated address _ :: earlier => address :: created earlier
  | _ :: earlier => created earlier

/-- The addresses of all contexts deleted so far, as often as they were. -/
def deleted : List Event → List ℕ
  | [] => []
  | .contextDeleted address :: earlier => address :: deleted earlier
  | _ :: earlier => deleted earlier

/-- Send completions that took the failure path. -/
def failedSends : List Event → ℕ
  | [] => 0
  | .sendFailed :: earlier => failedSends earlier + 1
  | _ :: earlier => failedSends earlier

/-- The bytes received on the current connection. -/
def received : List Event → List UInt8
  | [] => []
  | .issued :: _ => []
  | .received bytes :: earlier => received earlier ++ bytes
  | _ :: earlier => received earlier

/-- The bytes whose sending completed on the current connection. -/
def sent : List Event → List UInt8
  | [] => []
  | .issued :: _ => []
  | .sendCompleted bytes :: earlier => sent earlier ++ bytes
  | _ :: earlier => sent earlier

namespace SessionState

/-- The contexts that have not been deleted. -/
def live (session : SessionState) : List OverlappedIOContext :=
  session.inFlight ++ session.handled

/-- The contexts in flight whose completion the port reports: an `AcceptEx` is one of
the listening socket, every other call one of the session's own socket. -/
def completable (session : SessionState) : List OverlappedIOContext :=
  session.inFlight.filter fun context => session.attached || context.mIoType = .ioAccept

theorem inFlight_of_completable {session : SessionState} {context : OverlappedIOContext}
    (completes : context ∈ session.completable) : context ∈ session.inFlight :=
  (List.mem_filter.mp completes).1

/-- How many live contexts of one type there are. -/
def tokens (session : SessionState) (mIoType : IOType) : ℕ :=
  tally OverlappedIOContext.mIoType session.live mIoType

end SessionState

end Gsp.Homework5
