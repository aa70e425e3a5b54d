import Gsp.Homework4.Ownership

/-!
# What each operation does to the owner

One rule for every operation: from what the thread holds, what the operation needs
and what the thread holds afterwards. `Fine` collects what the server asks of an
operation in any state: it enters `ReturnClientSession` without a lock, a decrement
made under a lock does not bring the count to zero, and the buffer is as `PostRecv`
and `PostSend` expect it.
-/

namespace Gsp.Homework4

namespace Stream

variable {stream : Stream}

/-- What a completion leaves to the thread that dequeues it. -/
def Taken (packet : Packet) (stream : Stream) : Prop :=
  match packet.context.mIoType with
  | .ioAccept | .ioRecvZero => stream.Drained
  | .ioRecv => packet.ret = true → stream.Arrived packet.dwTransferred
  | .ioSend => stream.Holding ∧ packet.context.mWsaBuf.len = stream.mBuffer.mARegionSize ∧
      packet.dwTransferred ≤ packet.context.mWsaBuf.len
  | .ioDisconnect => True
  | .ioNone => False

theorem Sound.contents_eq (sound : stream.Sound) :
    stream.mBuffer.contents = stream.mBuffer.bytesA := by
  simp only [CircularBuffer.contents, CircularBuffer.bytesB, sound.closed, List.append_nil]

theorem Sound.contents_of_vacant (sound : stream.Sound)
    (vacant : stream.mBuffer.mARegionSize = 0) : stream.mBuffer.contents = [] := by
  rw [sound.contents_eq, CircularBuffer.bytesA, vacant, Region.read_zero]

theorem Sound.length_contents (sound : stream.Sound) :
    stream.mBuffer.contents.length = stream.mBuffer.mARegionSize := by
  rw [sound.contents_eq, CircularBuffer.length_bytesA]

/-- A completed receive keeps the stream sound. -/
theorem Sound.arrive (sound : stream.Sound) (input : Input) : (stream.arrive input).Sound := by
  simp only [Stream.arrive]
  split
  · constructor
    · exact ⟨sound.wellFormed.bufferEnd, sound.wellFormed.capacity_lt, sound.wellFormed.regionA,
        sound.wellFormed.emptyA, sound.wellFormed.withoutB, sound.wellFormed.regionB⟩
    · exact sound.capacity
    · exact sound.closed
    · rw [List.flatten_append]
      exact sound.prefixed.trans (List.prefix_append _ _)
  · exact sound

theorem Sound.restart (sound : stream.Sound) : stream.restart.Sound :=
  ⟨sound.wellFormed, sound.capacity, sound.closed, List.prefix_refl _⟩

/-- The context comes back with what it was waiting for. -/
theorem taken_arrive {input : Input} (ready : input.packet.context.Ready stream)
    (reports : input.Reports) : (stream.arrive input).Taken input.packet := by
  rcases reports with ⟨fits, length⟩
  rw [OverlappedIOContext.Ready] at ready
  rw [Taken]
  cases kind : input.packet.context.mIoType with
  | ioNone => simp only [kind] at ready
  | ioSend =>
      simp only [kind] at ready
      rcases ready with ⟨holding, window⟩
      simp only [Stream.arrive, kind]
      exact ⟨holding, congrArg WsaBuf.len window, fits⟩
  | ioRecv =>
      simp only [kind] at ready
      rcases ready with ⟨⟨vacant, removed⟩, window⟩
      intro ret
      rw [window] at fits
      have bytes := length kind
      simp only [Stream.arrive, kind, ret, window]
      refine ⟨vacant, fits, stream.received, input.data, rfl, removed, bytes, ?_⟩
      rw [← bytes]
      exact Region.read_write_self ..
  | ioRecvZero => simpa only [Stream.arrive, kind] using ready
  | ioAccept => simpa only [Stream.arrive, kind] using ready
  | ioDisconnect => trivial

end Stream

/-- What an operation asks of the server. -/
def Server.Fine {workers : ℕ} (thread : Thread workers) (operation : Operation)
    (server : Server workers) : Prop :=
  match operation with
  | .enters .returnClientSession _ => ∀ lock, server.owner lock ≠ some thread
  | .enters .postRecv client => (server.session client).mBuffer.contents = []
  | .enters .postSend client =>
      (server.session client).received.getLast? = some (server.session client).mBuffer.contents
  | .decrementRefCount client =>
      (∃ lock, server.owner lock = some thread) → (server.session client).mRefCount ≠ 1
  | .submit ⟨client, .ioRecv, window⟩ =>
      window = ⟨bufSize, some 0⟩ ∧ (server.session client).mBuffer.contents = []
  | .submit ⟨client, .ioSend, window⟩ =>
      window = ⟨(server.session client).mBuffer.contents.length, some 0⟩ ∧
        (server.session client).received.getLast? = some (server.session client).mBuffer.contents
  | _ => True

/-- What the keys of the threads mean, and what each operation needs of them. -/
def discipline (workers : ℕ) :
    Program.Discipline (Thread workers) (Server workers) Operation Ghost where
  Inv := Guarded
  Allowed _ _ _ := True
  Fine := Server.Fine

section Rules

open Server

variable {workers : ℕ} (thread : Thread workers)

/-- The operation keeps to the discipline. -/
abbrev Goes (operation : Operation) (ghost : Ghost) (post : operation.Result → Ghost → Prop) :
    Prop :=
  (program workers).Steps (discipline workers) thread operation ghost post

/-- The code keeps to the discipline. -/
abbrev Secure {Value : Type} (task : Task Value) (ghost : Ghost) (post : Value → Ghost → Prop) :
    Prop :=
  (program workers).Safe (discipline workers) thread task ghost post

variable {thread} {ghost : Ghost}

/-- A thread that changes nothing keeps its tokens. -/
theorem Guarded.keep {server : Server workers} {ghosts : Thread workers → Ghost}
    (guarded : Guarded server ghosts) :
    Guarded server (Function.update ghosts thread (ghosts thread)) := by
  rwa [Function.update_eq_self]

/-- An operation that leaves the server as it is. -/
theorem goes_still {operation : Operation}
    (fine : ∀ server ghosts, Guarded server ghosts → ghosts thread = ghost →
      server.Fine thread operation)
    (still : ∀ input server result after,
      Server.perform thread input operation server = .ok (result, after) → after = server) :
    Goes thread operation ghost fun _ next => next = ghost := by
  rintro server ghosts guarded rfl
  refine ⟨fine server ghosts guarded rfl, ?_⟩
  intro input result after _ performed
  rcases still input server result after performed with rfl
  exact ⟨_, guarded.keep, rfl⟩

/-- Operations that read the server or concern sockets only. -/
def Operation.isRead : Operation → Bool
  | .isConnected _ | .loadRefCount _ | .setUp _ | .belowMaxConnection => true
  | _ => false

/-- A read leaves the tokens alone. -/
theorem goes_read {operation : Operation} (reads : operation.isRead = true) :
    Goes thread operation ghost fun _ next => next = ghost := by
  apply goes_still
  · intro server ghosts _ _
    cases operation with
    | isConnected | loadRefCount | setUp | belowMaxConnection => trivial
    | _ => cases reads
  · intro input server result after performed
    cases operation with
    | isConnected | loadRefCount | setUp | belowMaxConnection =>
        cases performed
        rfl
    | _ => cases reads

theorem goes_isConnected (client : ClientId) :
    Goes thread (.isConnected client) ghost fun _ next => next = ghost :=
  goes_read rfl

theorem goes_loadRefCount (client : ClientId) :
    Goes thread (.loadRefCount client) ghost fun _ next => next = ghost :=
  goes_read rfl

theorem goes_setUp (call : SetUp) :
    Goes thread (.setUp call) ghost fun _ next => next = ghost :=
  goes_read rfl

theorem goes_belowMaxConnection :
    Goes thread .belowMaxConnection ghost fun _ next => next = ghost :=
  goes_read rfl

theorem goes_returnClientSession (unlocked : ghost.locks = []) (client : ClientId) :
    Goes thread (.enters .returnClientSession client) ghost fun _ next => next = ghost := by
  apply goes_still
  · rintro server ghosts guarded rfl lock owner
    have lockMem := guarded.owners lock thread owner
    rw [unlocked] at lockMem
    cases lockMem
  · rintro _ _ _ _ ⟨⟩
    rfl

theorem goes_postRecv {key : Key} (holds : ghost.key = some key) (drained : key.stream.Drained) :
    Goes thread (.enters .postRecv ghost.client) ghost fun _ next => next = ghost := by
  apply goes_still
  · rintro server ghosts guarded rfl
    have vacant := drained.vacant
    rw [guarded.known thread key holds] at vacant
    exact (guarded.sound _).contents_of_vacant vacant
  · rintro _ _ _ _ ⟨⟩
    rfl

theorem goes_postSend {key : Key} (holds : ghost.key = some key) (holding : key.stream.Holding) :
    Goes thread (.enters .postSend ghost.client) ghost fun _ next => next = ghost := by
  apply goes_still
  · rintro server ghosts guarded rfl
    rcases holding.chunk with ⟨earlier, received, _⟩
    rw [guarded.known thread key holds] at received
    simp only [Server.Fine, received]
    exact List.getLast?_concat
  · rintro _ _ _ _ ⟨⟩
    rfl

theorem goes_crash {post : Empty → Ghost → Prop} : Goes thread .crash ghost post := by
  intro server ghosts _ _
  refine ⟨trivial, ?_⟩
  intro input result after _ performed
  exact result.elim

/-- A thread takes or leaves a lock. -/
theorem Guarded.relock {server : Server workers} {ghosts : Thread workers → Ghost}
    (guarded : Guarded server ghosts) {lock : Lock} {owner : Option (Thread workers)}
    {locks : List Lock} (taken : ∀ other, owner = some other → other = thread ∧ lock ∈ locks)
    (kept : ∀ other ∈ (ghosts thread).locks, other ≠ lock → other ∈ locks) :
    Guarded (server.setOwner lock owner)
      (Function.update ghosts thread { ghosts thread with locks := locks }) := by
  apply guarded.change
  · intro other holder owned
    by_cases same : other = lock
    · subst same
      rw [owner_setOwner_self] at owned
      rcases taken holder owned with ⟨rfl, lockMem⟩
      rwa [Function.update_self]
    · rw [owner_setOwner_of_ne same] at owned
      have before := guarded.owners other holder owned
      by_cases mine : holder = thread
      · subst mine
        rw [Function.update_self]
        exact kept other before same
      · rwa [Function.update_of_ne mine]
  · intro client refs batons returnings before
    exact before
  · exact guarded.known thread
  · intro client
    exact Or.inl rfl
  · exact guarded.ready
  · exact guarded.vacant
  · exact guarded.sound

/-- An entered lock is held. -/
theorem goes_enterLock (lock : Lock) : Goes thread (.enterLock lock) ghost fun _ next =>
    next = { ghost with locks := lock :: ghost.locks } := by
  rintro server ghosts guarded rfl
  refine ⟨trivial, ?_⟩
  intro input result after _ performed
  simp only [program, Server.perform] at performed
  split at performed
  · cases performed
    refine ⟨_, ?_, rfl⟩
    apply guarded.relock
    · rintro other ⟨⟩
      exact ⟨rfl, List.mem_cons_self⟩
    · intro other otherMem _
      exact List.mem_cons_of_mem lock otherMem
  · cases performed

/-- The lock entered last is left first. -/
theorem goes_leaveLock {lock : Lock} {locks : List Lock} (held : ghost.locks = lock :: locks) :
    Goes thread (.leaveLock lock) ghost fun _ next => next = { ghost with locks := locks } := by
  rintro server ghosts guarded rfl
  refine ⟨trivial, ?_⟩
  intro input result after _ performed
  cases performed
  refine ⟨_, ?_, rfl⟩
  apply guarded.relock
  · intro other impossible
    cases impossible
  · intro other otherMem ne
    rw [held] at otherMem
    exact List.mem_of_ne_of_mem ne otherMem

/-- `mConnected` is not part of what is owned. -/
theorem Guarded.setConnected {server : Server workers} {ghosts : Thread workers → Ghost}
    (guarded : Guarded server ghosts) (connected : Bool) :
    Guarded (server.setSession (ghosts thread).client
        { server.session (ghosts thread).client with mConnected := connected })
      (Function.update ghosts thread (ghosts thread)) := by
  apply guarded.onSession rfl rfl
  · intro free refs batons returnings before
    exact ⟨before.counted, before.single, before.unused⟩
  · exact guarded.known thread
  · exact Or.inl rfl
  · exact guarded.ready _
  · exact guarded.sound _

theorem goes_exchangeConnected (connected : Bool) :
    Goes thread (.exchangeConnected ghost.client connected) ghost fun _ next => next = ghost := by
  rintro server ghosts guarded rfl
  refine ⟨trivial, ?_⟩
  intro input result after _ performed
  cases performed
  exact ⟨_, guarded.setConnected connected, rfl⟩

theorem goes_storeConnected :
    Goes thread (.storeConnected ghost.client) ghost fun _ next => next = ghost := by
  rintro server ghosts guarded rfl
  refine ⟨trivial, ?_⟩
  intro input result after _ performed
  cases performed
  exact ⟨_, guarded.setConnected false, rfl⟩

/-! ## The reference count -/

/-- The thread of a session changes the count and what it holds of it. -/
theorem Guarded.recount {server : Server workers} {ghosts : Thread workers → Ghost}
    (guarded : Guarded server ghosts) {next : Ghost} {count : ℤ}
    (sameClient : next.client = (ghosts thread).client)
    (sameLocks : next.locks = (ghosts thread).locks)
    (sameStream : ∀ key, next.key = some key →
      key.stream = (server.session (ghosts thread).client).toStream)
    (law : ∀ free refs batons returnings,
      Law (server.session (ghosts thread).client).mRefCount
        (server.session (ghosts thread).client).inFlight.length free (refs + (ghosts thread).refs)
        (batons + (ghosts thread).batons) (returnings + (ghosts thread).returnings) →
      Law count (server.session (ghosts thread).client).inFlight.length free (refs + next.refs)
        (batons + next.batons) (returnings + next.returnings)) :
    Guarded (server.setSession (ghosts thread).client
        { server.session (ghosts thread).client with mRefCount := count })
      (Function.update ghosts thread next) := by
  apply guarded.onSession
  · exact sameClient
  · exact sameLocks
  · exact law
  · exact sameStream
  · exact Or.inl rfl
  · exact guarded.ready _
  · exact guarded.sound _

/-- A reference for a context, while the session is still referenced. -/
theorem goes_incrementRefCount (some : 0 < ghost.refs + ghost.batons) :
    Goes thread (.incrementRefCount ghost.client) ghost fun _ next =>
      next = { ghost with refs := ghost.refs + 1 } := by
  rintro server ghosts guarded rfl
  refine ⟨trivial, ?_⟩
  intro input result after _ performed
  cases performed
  refine ⟨_, ?_, rfl⟩
  apply guarded.recount
  · rfl
  · rfl
  · exact guarded.known thread
  · rintro free refs batons returnings ⟨counted, single, unused⟩
    have sameBatons : Ghost.batons { ghosts thread with refs := (ghosts thread).refs + 1 } =
        (ghosts thread).batons := rfl
    constructor
    · rw [sameBatons]
      push_cast at counted ⊢
      omega
    · exact single
    · intro positive
      have zero := unused positive
      push_cast at counted
      omega

/-- The reference for issuing a session. -/
theorem goes_issueRef {stream : Stream} (key : ghost.key = some ⟨stream, true⟩)
    (unreferenced : ghost.refs = 0) :
    Goes thread (.incrementRefCount ghost.client) ghost fun _ next =>
      next = { ghost with key := some ⟨stream, false⟩ } := by
  rintro server ghosts guarded rfl
  refine ⟨trivial, ?_⟩
  intro input result after _ performed
  cases performed
  refine ⟨_, ?_, rfl⟩
  have batons : (ghosts thread).batons = 0 := by simp [Ghost.batons, key]
  have returnings : (ghosts thread).returnings = 1 := by simp [Ghost.returnings, key]
  apply guarded.recount
  · rfl
  · rfl
  · rintro other ⟨⟩
    have known := guarded.known thread _ key
    exact known
  · rintro free refs otherBatons otherReturnings ⟨counted, single, unused⟩
    rw [batons] at counted single
    rw [returnings] at single unused
    have zero := unused (by omega)
    constructor
    · simp only [Ghost.batons, Bool.false_eq_true, if_false]
      push_cast at counted ⊢
      omega
    · simp only [Ghost.batons, Ghost.returnings, Bool.false_eq_true, if_false]
      omega
    · intro positive
      simp only [Ghost.returnings, Bool.false_eq_true, if_false] at positive
      omega

/-- What is left after a reference, or the baton in its place, is given up. -/
structure Spends (ghost spent : Ghost) : Prop where
  client : spent.client = ghost.client
  locks : spent.locks = ghost.locks
  less : spent.refs + spent.batons + 1 = ghost.refs + ghost.batons
  keeps : spent.key = ghost.key ∨ spent.key = none

theorem Spends.batons_le {spent : Ghost} (spends : Spends ghost spent) :
    spent.batons ≤ ghost.batons := by
  rcases spends.keeps with same | lost
  · simp only [Ghost.batons, same]
    exact Nat.le_refl _
  · simp [Ghost.batons, lost]

theorem Spends.returnings_le {spent : Ghost} (spends : Spends ghost spent) :
    spent.returnings ≤ ghost.returnings := by
  rcases spends.keeps with same | lost
  · simp only [Ghost.returnings, same]
    exact Nat.le_refl _
  · simp [Ghost.returnings, lost]

/-- A spent reference leaves the law in place. -/
theorem Guarded.spend {server : Server workers} {ghosts : Thread workers → Ghost}
    (guarded : Guarded server ghosts) {spent : Ghost} (spends : Spends (ghosts thread) spent) :
    Guarded (server.setSession (ghosts thread).client
        { server.session (ghosts thread).client with
          mRefCount := (server.session (ghosts thread).client).mRefCount - 1 })
      (Function.update ghosts thread spent) := by
  have batons := spends.batons_le
  have returnings := spends.returnings_le
  have less := spends.less
  apply guarded.recount spends.client spends.locks
  · intro key holds
    rcases spends.keeps with same | lost
    · exact guarded.known thread key (same ▸ holds)
    · rw [lost] at holds
      cases holds
  · rintro free refs otherBatons otherReturnings ⟨counted, single, unused⟩
    constructor
    · push_cast at counted ⊢
      omega
    · omega
    · intro positive
      have zero := unused (by omega)
      push_cast at counted
      omega

/-- The last reference is given up: nobody holds anything of the session any more. -/
theorem Guarded.spendLast {server : Server workers} {ghosts : Thread workers → Ghost}
    (guarded : Guarded server ghosts) {spent : Ghost} (spends : Spends (ghosts thread) spent)
    (last : (server.session (ghosts thread).client).mRefCount - 1 = 0) :
    spent.refs + spent.batons = 0 ∧ Guarded (server.setSession (ghosts thread).client
        { server.session (ghosts thread).client with
          mRefCount := (server.session (ghosts thread).client).mRefCount - 1 })
      (Function.update ghosts thread { spent with
        key := some ⟨(server.session (ghosts thread).client).toStream, true⟩ }) := by
  have returnings := spends.returnings_le
  have less := spends.less
  have now := (guarded.law (ghosts thread).client).counted
  simp only [Guarded.total_eq _ _ thread, Ghost.share_self] at now
  push_cast at now
  refine ⟨by omega, ?_⟩
  apply guarded.recount
  · exact spends.client
  · exact spends.locks
  · rintro key ⟨⟩
    rfl
  · rintro free refs otherBatons otherReturnings ⟨counted, single, unused⟩
    push_cast at counted
    have noReturning : ¬0 < otherReturnings + (ghosts thread).returnings + free := by
      intro positive
      have zero := unused positive
      omega
    constructor
    · simp only [Ghost.batons, if_true]
      push_cast
      omega
    · simp only [Ghost.batons, Ghost.returnings, if_true]
      omega
    · intro _
      exact last

/-- A decrement spends a reference. -/
theorem goes_decrementRefCount {spent : Ghost} (spends : Spends ghost spent)
    (unlocked : ghost.locks = [] ∨ 0 < spent.refs + spent.batons) :
    Goes thread (.decrementRefCount ghost.client) ghost fun (count : ℤ) next =>
      (count ≠ 0 ∧ next = spent) ∨
      (count = 0 ∧ spent.refs + spent.batons = 0 ∧
        ∃ stream, next = { spent with key := some ⟨stream, true⟩ }) := by
  rintro server ghosts guarded rfl
  constructor
  · rintro ⟨lock, owner⟩ one
    have lockMem := guarded.owners lock thread owner
    rcases unlocked with free | more
    · rw [free] at lockMem
      cases lockMem
    · have less := spends.less
      have counted := (guarded.law (ghosts thread).client).counted
      simp only [Guarded.total_eq _ _ thread, Ghost.share_self] at counted
      push_cast at counted
      omega
  · intro input result after _ performed
    cases performed
    by_cases last : (server.session (ghosts thread).client).mRefCount - 1 = 0
    · rcases guarded.spendLast spends last with ⟨unreferenced, returned⟩
      exact ⟨_, returned, Or.inr ⟨last, unreferenced, _, rfl⟩⟩
    · exact ⟨_, guarded.spend spends, Or.inl ⟨last, rfl⟩⟩

/-- `SessionReset` stores the zero that is already there. -/
theorem goes_storeRefCount {stream : Stream} (key : ghost.key = some ⟨stream, true⟩) :
    Goes thread (.storeRefCount ghost.client) ghost fun _ next => next = ghost := by
  rintro server ghosts guarded rfl
  refine ⟨trivial, ?_⟩
  intro input result after _ performed
  cases performed
  refine ⟨_, ?_, rfl⟩
  have returnings : (ghosts thread).returnings = 1 := by simp [Ghost.returnings, key]
  apply guarded.recount
  · rfl
  · rfl
  · exact guarded.known thread
  · rintro free refs batons otherReturnings ⟨counted, single, unused⟩
    have zero := unused (by omega)
    exact ⟨by omega, single, fun _ => rfl⟩

/-! ## The buffer -/

/-- The holder of the baton may change the buffer. -/
theorem goes_buffer {key : Key} (holds : ghost.key = some key) (call : BufferCall)
    (sound : key.stream.Sound → (key.stream.onBuffer call).2.Sound) :
    Goes thread (.buffer ghost.client call) ghost fun result next =>
      key.stream.Sound ∧ result = (key.stream.onBuffer call).1 ∧
        next = { ghost with key := some { key with stream := (key.stream.onBuffer call).2 } } := by
  rintro server ghosts guarded rfl
  refine ⟨trivial, ?_⟩
  intro input result after _ performed
  have known := guarded.known thread key holds
  have before : key.stream.Sound := by
    rw [known]
    exact guarded.sound _
  simp only [program, Server.perform, ← known] at performed
  cases performed
  refine ⟨_, ?_, before, rfl, rfl⟩
  have keyed := Ghost.keys_of_some holds
  have batons : Ghost.batons { ghosts thread with
      key := some { key with stream := (key.stream.onBuffer call).2 } } =
      (ghosts thread).batons := by
    simp only [Ghost.batons, holds]
  have returnings : Ghost.returnings { ghosts thread with
      key := some { key with stream := (key.stream.onBuffer call).2 } } =
      (ghosts thread).returnings := by
    simp only [Ghost.returnings, holds]
  have single := (guarded.law (ghosts thread).client).single
  simp only [Guarded.total_eq _ _ thread, Ghost.share_self] at single
  have noFlight : (server.session (ghosts thread).client).inFlight = [] :=
    List.length_eq_zero_iff.mp (by omega)
  apply guarded.onSession
  · rfl
  · rfl
  · rintro free refs otherBatons otherReturnings ⟨counted, single, unused⟩
    rw [batons, returnings]
    exact ⟨counted, single, unused⟩
  · rintro other ⟨⟩
    rfl
  · right
    omega
  · intro context contextMem
    have inFlight : context ∈ (server.session (ghosts thread).client).inFlight := contextMem
    rw [noFlight] at inFlight
    cases inFlight
  · exact sound before

/-! ## Contexts in flight -/

/-- A context that is ready may be posted. -/
theorem Guarded.fine_submit {server : Server workers} {ghosts : Thread workers → Ghost}
    (guarded : Guarded server ghosts) {context : OverlappedIOContext} {client : ClientId}
    (owner : context.mSessionObject = client)
    (ready : context.Ready (server.session client).toStream) :
    server.Fine thread (.submit context) := by
  subst owner
  rcases context with ⟨client, kind, window⟩
  have sound := guarded.sound client
  cases kind with
  | ioRecv => exact ⟨ready.2, sound.contents_of_vacant ready.1.vacant⟩
  | ioSend =>
      rcases ready with ⟨⟨_, _, earlier, received, _⟩, window⟩
      refine ⟨?_, ?_⟩
      · rw [sound.length_contents]
        exact window
      · rw [received]
        exact List.getLast?_concat
  | ioAccept => trivial
  | ioRecvZero => trivial
  | ioDisconnect => trivial
  | ioNone => trivial

/-- The context takes its reference and the baton along. -/
theorem goes_submit {context : OverlappedIOContext} {stream : Stream} {refs : ℕ}
    (owner : context.mSessionObject = ghost.client) (key : ghost.key = some ⟨stream, false⟩)
    (referenced : ghost.refs = refs + 1) (ready : context.Ready stream) :
    Goes thread (.submit context) ghost fun (posted : Bool) next =>
      (posted = true ∧ next = { ghost with refs := refs, key := none }) ∨
        (posted = false ∧ next = ghost) := by
  rintro server ghosts guarded rfl
  have known := guarded.known thread _ key
  simp only at known
  rw [known] at ready
  refine ⟨guarded.fine_submit owner ready, ?_⟩
  intro input result after _ performed
  simp only [program, Server.perform] at performed
  split at performed
  · cases performed
    refine ⟨_, ?_, Or.inl ⟨rfl, rfl⟩⟩
    have batons : (ghosts thread).batons = 1 := by simp [Ghost.batons, key]
    have returnings : (ghosts thread).returnings = 0 := by simp [Ghost.returnings, key]
    rw [owner]
    apply guarded.onSession
    · rfl
    · rfl
    · rintro free otherRefs otherBatons otherReturnings ⟨counted, single, unused⟩
      rw [batons] at counted single
      rw [returnings] at single unused
      rw [referenced] at counted
      simp only [Ghost.batons, Ghost.returnings, List.length_append, List.length_singleton]
      constructor
      · push_cast at counted ⊢
        omega
      · omega
      · exact unused
    · rintro other ⟨⟩
    · exact Or.inl rfl
    · intro other otherMem
      rcases List.mem_append.mp otherMem with otherMem | otherMem
      · exact guarded.ready _ other otherMem
      · rw [List.mem_singleton.mp otherMem]
        exact ⟨owner, ready⟩
    · exact guarded.sound _
  · cases performed
    exact ⟨_, guarded.keep, Or.inr ⟨rfl, rfl⟩⟩

/-- The thread takes the reference and the baton of the context over. -/
theorem goes_getQueuedCompletionStatus :
    Goes thread .getQueuedCompletionStatus ghost fun (packet : Packet) next =>
      ∃ stream, stream.Taken packet ∧
        next = ⟨ghost.locks, packet.context.mSessionObject, 1, some ⟨stream, false⟩⟩ := by
  rintro server ghosts guarded rfl
  refine ⟨trivial, ?_⟩
  intro input result after _ performed
  simp only [program, Server.perform] at performed
  split at performed
  · next enabled =>
      rcases enabled with ⟨inFlight, reports⟩
      cases performed
      rcases guarded.ready _ _ inFlight with ⟨_, ready⟩
      refine ⟨_, ?_, _, Stream.taken_arrive ready reports, rfl⟩
      have fewer := List.length_erase_of_mem inFlight
      have someFlight := List.length_pos_of_mem inFlight
      have single := (guarded.law input.packet.context.mSessionObject).single
      apply guarded.changeSession
      · rfl
      · rfl
      · intro client _
        rfl
      · rintro refs batons returnings ⟨counted, single, unused⟩
        simp only [Ghost.batons, Ghost.returnings, Bool.false_eq_true, if_false, fewer]
        constructor
        · push_cast at counted ⊢
          omega
        · omega
        · intro positive
          exact unused (by omega)
      · rintro key ⟨⟩
        rfl
      · right
        omega
      · intro context contextMem
        -- at most one context was in flight
        have remaining := List.length_pos_of_mem contextMem
        rw [fewer] at remaining
        omega
      · intro listed
        have free := List.count_pos_iff.mpr listed
        omega
      · exact (guarded.sound _).arrive input
  · cases performed

/-! ## The session manager -/

/-- The counters of the manager are not part of what is owned. -/
theorem Guarded.setManager {server : Server workers} {ghosts : Thread workers → Ghost}
    (guarded : Guarded server ghosts) {manager : SessionManager}
    (sameList : manager.mFreeSessionList = server.manager.mFreeSessionList) :
    Guarded { server with manager := manager } ghosts := by
  refine ⟨guarded.owners, ?_, guarded.known, guarded.ready, ?_, guarded.sound⟩
  · intro client
    rw [sameList]
    exact guarded.law client
  · intro client clientMem
    rw [sameList] at clientMem
    exact guarded.vacant client clientMem

theorem goes_countIssue : Goes thread .countIssue ghost fun _ next => next = ghost := by
  rintro server ghosts guarded rfl
  refine ⟨trivial, ?_⟩
  intro input result after _ performed
  cases performed
  refine ⟨_, ?_, rfl⟩
  apply Guarded.setManager guarded.keep
  rfl

theorem goes_countReturn : Goes thread .countReturn ghost fun _ next => next = ghost := by
  rintro server ghosts guarded rfl
  refine ⟨trivial, ?_⟩
  intro input result after _ performed
  cases performed
  refine ⟨_, ?_, rfl⟩
  apply Guarded.setManager guarded.keep
  rfl

/-- Nobody else holds anything of a session taken from the free list. -/
theorem Guarded.take {server : Server workers} {ghosts : Thread workers → Ghost}
    (guarded : Guarded server ghosts) {taken : ClientId} {rest : List ClientId}
    (list : server.manager.mFreeSessionList = taken :: rest) :
    Guarded { server.setSession taken { server.session taken with
          toStream := (server.session taken).toStream.restart } with
        manager := { server.manager with mFreeSessionList := rest } }
      (Function.update ghosts thread
        ⟨(ghosts thread).locks, taken, 0,
          some ⟨(server.session taken).toStream.restart, true⟩⟩) := by
  have count (client : ClientId) : server.manager.mFreeSessionList.count client =
      rest.count client + if taken = client then 1 else 0 := by
    rw [list, List.count_cons]
    simp
  have listed := guarded.vacant taken (by
    rw [list]
    exact List.mem_cons_self)
  have single := (guarded.law taken).single
  rw [count, if_pos rfl] at single
  apply guarded.changeSession
  · rfl
  · rfl
  · intro client ne
    rw [count, if_neg ne.symm]
    rfl
  · rintro refs batons returnings ⟨counted, single, unused⟩
    rw [count, if_pos rfl] at single unused
    simp only [Ghost.batons, Ghost.returnings, if_true]
    constructor
    · push_cast at counted ⊢
      omega
    · omega
    · intro _
      exact unused (by omega)
  · rintro key ⟨⟩
    rfl
  · right
    rw [count, if_pos rfl]
    omega
  · intro context contextMem
    have someFlight := List.length_pos_of_mem contextMem
    simp only at someFlight
    omega
  · intro _
    exact listed
  · exact (guarded.sound taken).restart

/-- A session out of the pool comes with an empty buffer. -/
theorem goes_popFreeSession : Goes thread .popFreeSession ghost fun (client : ClientId) next =>
    ∃ stream, stream.Drained ∧ next = ⟨ghost.locks, client, 0, some ⟨stream, true⟩⟩ := by
  rintro server ghosts guarded rfl
  refine ⟨trivial, ?_⟩
  intro input result after _ performed
  simp only [program, Server.perform] at performed
  split at performed
  · cases performed
  · next list =>
      cases performed
      have vacant := guarded.vacant _ (by
        rw [list]
        exact List.mem_cons_self)
      exact ⟨_, guarded.take list, Stream.restart _, ⟨vacant, rfl⟩, rfl⟩

/-- A session goes back to the pool with an empty buffer. -/
theorem goes_pushFreeSession {stream : Stream} (key : ghost.key = some ⟨stream, true⟩)
    (vacant : stream.mBuffer.mARegionSize = 0) :
    Goes thread (.pushFreeSession ghost.client) ghost fun _ next =>
      next = { ghost with key := none } := by
  rintro server ghosts guarded rfl
  refine ⟨trivial, ?_⟩
  intro input result after _ performed
  cases performed
  refine ⟨_, ?_, rfl⟩
  have known := guarded.known thread _ key
  have batons : (ghosts thread).batons = 0 := by simp [Ghost.batons, key]
  have returnings : (ghosts thread).returnings = 1 := by simp [Ghost.returnings, key]
  apply guarded.change
  · apply guarded.owners_update
    rfl
  · rintro client refs otherBatons otherReturnings ⟨counted, single, unused⟩
    rw [List.count_cons]
    by_cases same : (ghosts thread).client = client
    · subst same
      simp only [Ghost.share_self, batons, returnings] at counted single unused
      simp only [Ghost.share, Ghost.batons, Ghost.returnings, beq_self_eq_true, if_true]
      exact ⟨counted, by omega, fun _ => unused (by omega)⟩
    · simp only [Ghost.share, if_neg same] at counted single unused ⊢
      simp only [beq_iff_eq, if_neg same]
      exact ⟨counted, single, unused⟩
  · rintro other ⟨⟩
  · intro client
    exact Or.inl rfl
  · exact guarded.ready
  · intro client clientMem
    rcases List.mem_cons.mp clientMem with rfl | clientMem
    · simp only at known
      rw [← known]
      exact vacant
    · exact guarded.vacant client clientMem
  · exact guarded.sound

end Rules

end Gsp.Homework4
