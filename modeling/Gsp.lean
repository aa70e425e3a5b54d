import Gsp.Lib.Machine
import Gsp.CircularBuffer.Refinement
import Gsp.DummyClient.Basic
import Gsp.DummyClient.Framing
import Gsp.DummyClient.Receive
import Gsp.Homework5.Basic
import Gsp.Homework5.Session
import Gsp.Homework5.WorkerThread
import Gsp.Homework5.Effects
import Gsp.Homework5.Account
import Gsp.Homework5.Lifetime
import Gsp.Homework5.Turn
import Gsp.Homework5.Frame
import Gsp.Homework5.Echo
import Gsp.Homework5.History
import Gsp.Homework5.Safe
import Gsp.Homework5.Outgoing
import Gsp.Homework5.Change
import Gsp.Homework5.Reached
import Gsp.Homework5.Recycling
import Gsp.Homework5.Transfer
import Gsp.Homework5.Stranded
import Gsp.Homework5.Spinning
import Gsp.Homework5.Overtaken
import Gsp.Homework5.SendRequests
import Gsp.Homework4.FastSpinlock
import Gsp.ObjectPool.Basic
import Gsp.ObjectPool.FreeList
import Gsp.ObjectPool.Partition
import Gsp.ObjectPool.Generations
import Gsp.Homework4.MemoryBlocks
import Gsp.Homework4.MemoryReuse
import Gsp.DummyClient.RoundTrip
import Gsp.DummyClient.InStep
import Gsp.Lib.Code
import Gsp.Lib.Threads
import Gsp.Homework4.ClientSession
import Gsp.Homework4.IocpManager
import Gsp.Homework4.Ownership
import Gsp.Homework4.Operations
import Gsp.Homework4.Completions
import Gsp.Homework4.Alternation
import Gsp.Homework5.LockOrder
import Gsp.Homework5.Deadlock
import Gsp.Homework5.Ownership
import Gsp.Homework5.Operations
import Gsp.Homework5.Contexts
import Gsp.Homework5.Completions
import Gsp.Homework5.RecvOwner
import Gsp.Homework5.Returned
import Gsp.DummyClient.ThreadCallHistory
import Gsp.Homework4.Player
import Gsp.Homework4.STLAllocator
import Gsp.Homework4.Timer
import Gsp.MyPacket.SendRequest
import Gsp.MyPacket.PacketHandler
import Gsp.DummyClients.Connections
import Gsp.Lib.Uninterrupted
import Gsp.Homework5.SessionCalls
import Gsp.Homework5.ServerCalls
