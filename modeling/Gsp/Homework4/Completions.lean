import Gsp.Homework4.Operations

/-!
# What each function does to the owner

From the rules of the operations to the functions of a session and the two loops.
The error paths under a lock delete a context while the thread still holds another
reference, so they never return the session; the deletion at the end of a
completion may, and is made without a lock.
-/

namespace Gsp.Homework4

/-! ## The alternation of the buffer -/

namespace Stream

open CircularBuffer

variable {stream : Stream} {len : ℕ}

theorem Sound.getFreeSpaceSize_eq (sound : stream.Sound)
    (vacant : stream.mBuffer.mARegionSize = 0) :
    stream.onBuffer .getFreeSpaceSize = (bufSize, stream) := by
  rcases sound.wellFormed.emptyA vacant with ⟨start, closed⟩
  have free := sound.wellFormed.getAFreeSpace_eq
  rw [start, vacant, sound.capacity] at free
  simp only [Stream.onBuffer, getFreeSpaceSize, closed, Option.isSome_none, Bool.false_eq_true,
    if_false, free, getSpaceBeforeA, start, Nat.sub_zero, Nat.not_lt_zero]
  rfl

theorem Sound.getBuffer_eq (sound : stream.Sound) (vacant : stream.mBuffer.mARegionSize = 0) :
    stream.mBuffer.getBuffer = 0 := by
  rcases sound.wellFormed.emptyA vacant with ⟨start, closed⟩
  simp only [getBuffer, closed, start, vacant]

theorem Holding.getContiguiousBytes_eq (holding : stream.Holding) :
    stream.mBuffer.getContiguiousBytes = stream.mBuffer.mARegionSize :=
  if_pos holding.some

theorem Holding.getBufferStart_eq (holding : stream.Holding) :
    stream.mBuffer.getBufferStart = Option.some 0 := by
  rw [CircularBuffer.getBufferStart, if_pos holding.some, holding.front]

theorem Sound.size_le (sound : stream.Sound) : stream.mBuffer.mARegionSize ≤ bufSize := by
  have region := sound.wellFormed.regionA
  rw [sound.capacity] at region
  omega

/-- Committing what arrived keeps the buffer sound. -/
theorem Sound.commit (sound : stream.Sound) (arrived : stream.Arrived len) :
    (stream.onBuffer (.commit len)).2.Sound := by
  rcases sound.wellFormed.emptyA arrived.vacant with ⟨start, closed⟩
  have wellFormed := sound.wellFormed
  have fits := arrived.fits
  have capacity := sound.capacity
  constructor
  · constructor <;>
      simp only [Stream.onBuffer, CircularBuffer.commit, closed, Option.isSome_none,
        Bool.false_eq_true, if_false]
    · exact wellFormed.bufferEnd
    · exact wellFormed.capacity_lt
    · rw [start, arrived.vacant, capacity]
      omega
    · exact fun _ => ⟨start, trivial⟩
    · exact fun _ => wellFormed.withoutB closed
    · intro pointer allocated
      cases allocated
  · simpa only [Stream.onBuffer, capacity_commit] using capacity
  · simp only [Stream.onBuffer, CircularBuffer.commit, closed, Option.isSome_none,
      Bool.false_eq_true, if_false]
  · exact sound.prefixed

/-- The committed window is what has just been received. -/
theorem Sound.holding_commit (sound : stream.Sound) (arrived : stream.Arrived len)
    (some : 0 < len) : (stream.onBuffer (.commit len)).2.Holding := by
  rcases sound.wellFormed.emptyA arrived.vacant with ⟨start, closed⟩
  rcases arrived.chunk with ⟨earlier, chunk, received, removed, _, bytes⟩
  have contents : (stream.onBuffer (.commit len)).2.mBuffer.contents = chunk := by
    rw [(sound.commit arrived).contents_eq, ← bytes]
    simp only [Stream.onBuffer, CircularBuffer.commit, closed, Option.isSome_none,
      Bool.false_eq_true, if_false, bytesA, start, arrived.vacant, Nat.zero_add]
  refine ⟨?_, ?_, earlier, ?_, removed⟩
  · simpa only [Stream.onBuffer, CircularBuffer.commit, closed, Option.isSome_none,
      Bool.false_eq_true, if_false] using start
  · simp only [Stream.onBuffer, CircularBuffer.commit, closed, Option.isSome_none,
      Bool.false_eq_true, if_false]
    omega
  · rw [contents]
    exact received

/-- Removing what is held keeps the buffer sound. -/
theorem Sound.remove (sound : stream.Sound) (holding : stream.Holding) (len : ℕ) :
    (stream.onBuffer (.remove len)).2.Sound := by
  rcases holding.chunk with ⟨earlier, received, removed⟩
  constructor
  · exact sound.wellFormed.remove len
  · simpa only [Stream.onBuffer, capacity_remove] using sound.capacity
  · simp only [Stream.onBuffer]
    rcases Nat.lt_or_ge len stream.mBuffer.mARegionSize with less | all
    · rw [WellFormed.remove_of_lt less]
      exact sound.closed
    · rw [sound.wellFormed.remove_of_ge]
      rw [getStoredSize, sound.wellFormed.withoutB sound.closed]
      exact all
  · simp only [Stream.onBuffer, received, removed, List.flatten_append, List.flatten_singleton]
    exact List.prefix_append_right_inj _ |>.mpr (List.take_prefix _ _)

/-- A complete send drains the buffer. -/
theorem Sound.drained_remove (sound : stream.Sound) (holding : stream.Holding) :
    (stream.onBuffer (.remove stream.mBuffer.mARegionSize)).2.Drained := by
  rcases holding.chunk with ⟨earlier, received, removed⟩
  have all : stream.mBuffer.getStoredSize ≤ stream.mBuffer.mARegionSize := by
    rw [getStoredSize, sound.wellFormed.withoutB sound.closed]
    exact Nat.le_refl _
  constructor
  · simp only [Stream.onBuffer]
    rw [sound.wellFormed.remove_of_ge all]
  · have whole := List.take_of_length_le (Nat.le_of_eq sound.length_contents)
    simp only [Stream.onBuffer, received, removed, List.flatten_append, List.flatten_singleton,
      whole]

/-- A reset buffer is sound. -/
theorem Sound.bufferReset (sound : stream.Sound) :
    (stream.onBuffer .bufferReset).2.Sound :=
  ⟨sound.wellFormed.bufferReset, sound.capacity, rfl, sound.prefixed⟩

end Stream

section Functions

open Program ClientSession SessionManager IocpManager

variable {workers : ℕ} {thread : Thread workers} {ghost : Ghost} {stream : Stream}
  {Value : Type}

theorem secure_act {operation : Operation} {post : operation.Result → Ghost → Prop}
    (goes : Goes thread operation ghost post) : Secure thread (act operation) ghost post :=
  goes

theorem secure_crash {post : Value → Ghost → Prop} : Secure thread crash ghost post := by
  apply Steps.mono goes_crash
  · exact fun result _ _ => result.elim
  · exact fun _ _ => True

/-- A failed assertion ends the thread. -/
theorem secure_crashAssert {condition : Bool} {post : Unit → Ghost → Prop}
    (holds : post () ghost) : Secure thread (crashAssert condition) ghost post := by
  cases condition
  · exact secure_crash
  · exact holds

/-- What follows an assertion runs only if it holds. -/
theorem secure_asserted {condition : Bool} {rest : Unit → Task Value}
    {post : Value → Ghost → Prop} (holds : Secure thread (rest ()) ghost post) :
    Secure thread (crashAssert condition >>= rest) ghost post := by
  have first : Secure thread (crashAssert condition) ghost fun _ next => next = ghost :=
    secure_crashAssert rfl
  apply first.bind
  rintro _ _ rfl
  exact holds

theorem secure_guarded {lock : Lock} {block : Task Value} {post : Value → Ghost → Prop}
    (inside : Secure thread block { ghost with locks := lock :: ghost.locks } fun value next =>
      next.locks = lock :: ghost.locks ∧ post value { next with locks := ghost.locks }) :
    Secure thread (guarded lock block) ghost post := by
  apply Safe.bind (secure_act (goes_enterLock lock))
  rintro _ _ rfl
  apply Safe.bind inside
  rintro value next ⟨held, holds⟩
  apply Safe.bind (secure_act (goes_leaveLock held))
  rintro _ _ rfl
  exact holds

theorem secure_classLock (mIoType : IOType) :
    Secure thread (guarded (.classLock mIoType) (pure ())) ghost fun _ next => next = ghost := by
  apply secure_guarded
  apply safe_pure
  exact ⟨rfl, rfl⟩

/-! ## References -/

/-- A referenced session can be referenced once more. -/
theorem secure_addRef (some : 0 < ghost.refs + ghost.batons) :
    Secure thread (addRef ghost.client) ghost fun _ next =>
      next = { ghost with refs := ghost.refs + 1 } := by
  apply Safe.bind (secure_act (goes_incrementRefCount some))
  rintro count _ rfl
  apply secure_crashAssert
  rfl

/-- The reference of an issued session is its baton. -/
theorem secure_issue (key : ghost.key = some ⟨stream, true⟩) (unreferenced : ghost.refs = 0) :
    Secure thread (addRef ghost.client) ghost fun _ next =>
      next = { ghost with key := some ⟨stream, false⟩ } := by
  apply Safe.bind (secure_act (goes_issueRef key unreferenced))
  rintro count _ rfl
  apply secure_crashAssert
  rfl

theorem secure_sessionReset (key : ghost.key = some ⟨stream, true⟩) :
    Secure thread (sessionReset ghost.client) ghost fun _ next => ∃ reset : Stream,
      reset.mBuffer.mARegionSize = 0 ∧ next = { ghost with key := some ⟨reset, true⟩ } := by
  apply Safe.bind (secure_act goes_storeConnected)
  rintro _ _ rfl
  apply Safe.bind (secure_act (goes_storeRefCount key))
  rintro _ _ rfl
  apply Safe.mono (secure_act (goes_buffer key .bufferReset Stream.Sound.bufferReset))
  rintro _ _ ⟨_, _, rfl⟩
  exact ⟨_, rfl, rfl⟩

/-- A session goes back to the pool with no lock held. -/
theorem secure_returnClientSession (unlocked : ghost.locks = [])
    (key : ghost.key = some ⟨stream, true⟩) :
    Secure thread (returnClientSession ghost.client) ghost fun _ next =>
      next = { ghost with key := none } := by
  apply Safe.bind (secure_act (goes_returnClientSession unlocked _))
  rintro _ ghost rfl
  apply secure_guarded
  apply Safe.bind (secure_act (goes_isConnected _))
  rintro connected _ rfl
  apply Safe.bind (secure_act (goes_loadRefCount _))
  rintro count _ rfl
  apply secure_asserted
  have keyed : { ghost with locks := .mLock :: ghost.locks : Ghost }.key = some ⟨stream, true⟩ :=
    key
  apply Safe.bind (secure_sessionReset keyed)
  rintro _ _ ⟨reset, vacant, rfl⟩
  apply Safe.bind (secure_act (goes_pushFreeSession rfl vacant))
  rintro _ _ rfl
  apply Safe.mono (secure_act goes_countReturn)
  rintro _ _ rfl
  exact ⟨rfl, rfl⟩

/-- A reference that is not the last. -/
theorem secure_releaseRef_kept {spent : Ghost} (spends : Spends ghost spent)
    (more : 0 < spent.refs + spent.batons) :
    Secure thread (releaseRef ghost.client) ghost fun _ next => next = spent := by
  apply Safe.bind (secure_act (goes_decrementRefCount spends (Or.inr more)))
  rintro (count : ℤ) next (⟨positive, rfl⟩ | ⟨_, none, _⟩)
  · apply secure_asserted
    rw [if_neg positive]
    exact rfl
  · omega

/-- Without a lock the last reference may be released. -/
theorem secure_releaseRef {spent : Ghost} (spends : Spends ghost spent)
    (unlocked : ghost.locks = []) :
    Secure thread (releaseRef ghost.client) ghost fun _ next => next.locks = [] := by
  apply Safe.bind (secure_act (goes_decrementRefCount spends (Or.inl unlocked)))
  rintro (count : ℤ) next (⟨positive, rfl⟩ | ⟨zero, _, stream, rfl⟩)
  · apply secure_asserted
    rw [if_neg positive]
    exact spends.locks.trans unlocked
  · apply secure_asserted
    rw [if_pos zero, ← spends.client]
    apply Safe.mono
    · apply secure_returnClientSession
      · exact spends.locks.trans unlocked
      · rfl
    · rintro _ _ rfl
      exact spends.locks.trans unlocked

/-! ## Contexts -/

theorem secure_newContext (mIoType : IOType) (some : 0 < ghost.refs + ghost.batons) :
    Secure thread (newContext ghost.client mIoType) ghost fun context next =>
      context = ⟨ghost.client, mIoType, ⟨0, none⟩⟩ ∧
        next = { ghost with refs := ghost.refs + 1 } := by
  apply Safe.bind (secure_classLock mIoType)
  rintro _ _ rfl
  apply Safe.bind (secure_addRef some)
  rintro _ _ rfl
  exact ⟨rfl, rfl⟩

theorem secure_delete (mIoType : IOType) :
    Secure thread (if mIoType = .ioNone then crash else guarded (.classLock mIoType) (pure ()))
      ghost fun _ next => next = ghost := by
  by_cases unknown : mIoType = .ioNone
  · rw [if_pos unknown]
    exact secure_crash
  · rw [if_neg unknown]
    exact secure_classLock mIoType

theorem secure_deleteIoContext_kept {context : OverlappedIOContext} {spent : Ghost}
    (owner : context.mSessionObject = ghost.client) (spends : Spends ghost spent)
    (more : 0 < spent.refs + spent.batons) :
    Secure thread (deleteIoContext context) ghost fun _ next => next = spent := by
  rw [deleteIoContext, owner]
  apply Safe.bind (secure_releaseRef_kept spends more)
  rintro _ _ rfl
  exact secure_delete context.mIoType

/-- A deleted context gives its reference back. -/
theorem secure_deleteIoContext {context : OverlappedIOContext} {spent : Ghost}
    (owner : context.mSessionObject = ghost.client) (spends : Spends ghost spent)
    (unlocked : ghost.locks = []) :
    Secure thread (deleteIoContext context) ghost fun _ next => next.locks = [] := by
  rw [deleteIoContext, owner]
  apply Safe.bind (secure_releaseRef spends unlocked)
  intro _ next free
  apply Safe.mono (secure_delete context.mIoType)
  rintro _ _ rfl
  exact free

/-- Posted, the context takes the baton along; otherwise nothing has changed. -/
def Posted (ghost : Ghost) (posted : Bool) (next : Ghost) : Prop :=
  (posted = true ∧ next = { ghost with key := none }) ∨ (posted = false ∧ next = ghost)

/-- A posted context takes the baton with it. -/
theorem secure_post {context : OverlappedIOContext} (owner : context.mSessionObject = ghost.client)
    (key : ghost.key = some ⟨stream, false⟩) (ready : context.Ready stream) :
    Secure thread (post context) { ghost with refs := ghost.refs + 1 } (Posted ghost) := by
  have submitted : Secure thread (submit context) { ghost with refs := ghost.refs + 1 } _ :=
    goes_submit owner key rfl ready
  apply submitted.bind
  rintro _ _ (⟨rfl, rfl⟩ | ⟨rfl, rfl⟩)
  · exact Or.inl ⟨rfl, rfl⟩
  · have batons : ghost.batons = 1 := by simp [Ghost.batons, key]
    have spends : Spends { ghost with refs := ghost.refs + 1 } ghost := by
      refine ⟨rfl, rfl, ?_, Or.inl rfl⟩
      have same : Ghost.batons { ghost with refs := ghost.refs + 1 } = ghost.batons := rfl
      rw [same]
      exact Nat.add_right_comm ..
    have deleted : Secure thread (deleteIoContext context)
        { ghost with refs := ghost.refs + 1 } _ :=
      secure_deleteIoContext_kept owner spends (by omega)
    apply deleted.bind
    rintro _ _ rfl
    exact Or.inr ⟨rfl, rfl⟩

/-- A context whose buffer is as it needs it. -/
theorem secure_request {mIoType : IOType}
    (key : ghost.key = some ⟨stream, false⟩)
    (ready : OverlappedIOContext.Ready ⟨ghost.client, mIoType, ⟨0, none⟩⟩ stream) :
    Secure thread (newContext ghost.client mIoType >>= post) ghost (Posted ghost) := by
  have batons : ghost.batons = 1 := by simp [Ghost.batons, key]
  apply Safe.bind
  · apply secure_newContext
    omega
  · rintro _ _ ⟨rfl, rfl⟩
    exact secure_post rfl key ready

theorem secure_postAccept (key : ghost.key = some ⟨stream, false⟩) (drained : stream.Drained) :
    Secure thread (postAccept ghost.client) ghost (Posted ghost) :=
  secure_request key drained

theorem secure_disconnectRequest (key : ghost.key = some ⟨stream, false⟩) :
    Secure thread (disconnectRequest ghost.client) ghost fun _ next =>
      ∃ posted, Posted ghost posted next := by
  apply Safe.bind (secure_act (goes_exchangeConnected false))
  rintro (connected : Bool) ghost rfl
  cases connected
  · exact ⟨false, Or.inr ⟨rfl, rfl⟩⟩
  · have batons : ghost.batons = 1 := by simp [Ghost.batons, key]
    apply Safe.bind
    · apply secure_newContext
      omega
    · rintro _ _ ⟨rfl, rfl⟩
      have request : Secure thread (post ⟨ghost.client, .ioDisconnect, ⟨0, none⟩⟩) _ _ :=
        secure_post rfl key trivial
      apply request.bind
      intro posted next done
      exact ⟨posted, done⟩

/-- A session that is no longer connected posts nothing. -/
theorem secure_ifConnected {block : Task Bool} (inside : Secure thread block ghost (Posted ghost)) :
    Secure thread (do
      let connected ← isConnected ghost.client
      if connected then block else return false) ghost (Posted ghost) := by
  apply Safe.bind (secure_act (goes_isConnected _))
  rintro (connected : Bool) _ rfl
  cases connected
  · exact Or.inr ⟨rfl, rfl⟩
  · exact inside

theorem secure_preRecv (key : ghost.key = some ⟨stream, false⟩) (drained : stream.Drained) :
    Secure thread (preRecv ghost.client) ghost (Posted ghost) := by
  apply secure_ifConnected
  exact secure_request key drained

theorem secure_buffer {call : BufferCall} (key : ghost.key = some ⟨stream, false⟩)
    (kept : stream.Sound → (stream.onBuffer call).2.Sound) :
    Secure thread (buffer ghost.client call) ghost fun result next =>
      stream.Sound ∧ result = (stream.onBuffer call).1 ∧
        next = { ghost with key := some ⟨(stream.onBuffer call).2, false⟩ } :=
  secure_act (goes_buffer key call kept)

/-- An empty buffer offers its whole room. -/
theorem secure_getFreeSpaceSize (key : ghost.key = some ⟨stream, false⟩)
    (vacant : stream.mBuffer.mARegionSize = 0) :
    Secure thread (buffer ghost.client .getFreeSpaceSize) ghost fun (free : ℕ) next =>
      free = bufSize ∧ next = ghost := by
  have kept (sound : stream.Sound) : (stream.onBuffer .getFreeSpaceSize).2.Sound := by
    rw [sound.getFreeSpaceSize_eq vacant]
    exact sound
  apply Safe.mono (secure_buffer key kept)
  rintro free _ ⟨sound, rfl, rfl⟩
  rw [sound.getFreeSpaceSize_eq vacant, ← key]
  exact ⟨rfl, rfl⟩

/-- A call that only reads the buffer. -/
theorem secure_read {call : BufferCall} (key : ghost.key = some ⟨stream, false⟩)
    (reads : (stream.onBuffer call).2 = stream) :
    Secure thread (buffer ghost.client call) ghost fun result next =>
      stream.Sound ∧ result = (stream.onBuffer call).1 ∧ next = ghost := by
  have kept (sound : stream.Sound) : (stream.onBuffer call).2.Sound := by
    rw [reads]
    exact sound
  apply Safe.mono (secure_buffer key kept)
  rintro result _ ⟨sound, rfl, rfl⟩
  rw [reads, ← key]
  exact ⟨sound, rfl, rfl⟩

/-- Whatever lock is held, the block posts or changes nothing. -/
theorem secure_guarded_posted {lock : Lock} {block : Task Bool}
    (inside : ∀ locked : Ghost, ghost.client = locked.client → ghost.key = locked.key →
      Secure thread block locked (Posted locked)) :
    Secure thread (guarded lock block) ghost (Posted ghost) := by
  apply secure_guarded
  have locked := inside { ghost with locks := lock :: ghost.locks } rfl rfl
  apply locked.mono
  rintro posted next (⟨rfl, rfl⟩ | ⟨rfl, rfl⟩)
  · exact ⟨rfl, Or.inl ⟨rfl, rfl⟩⟩
  · exact ⟨rfl, Or.inr ⟨rfl, rfl⟩⟩

/-- The window of a receive is the whole buffer. -/
theorem secure_postRecv (key : ghost.key = some ⟨stream, false⟩) (drained : stream.Drained) :
    Secure thread (postRecv ghost.client) ghost (Posted ghost) := by
  have vacant := drained.vacant
  apply Safe.bind (secure_act (goes_postRecv key drained))
  rintro _ ghost rfl
  apply secure_ifConnected
  apply secure_guarded_posted
  intro locked sameClient sameKey
  rw [sameClient]
  rw [sameKey] at key
  have batons : locked.batons = 1 := by simp [Ghost.batons, key]
  apply Safe.bind (secure_getFreeSpaceSize key vacant)
  rintro _ locked ⟨rfl, rfl⟩
  rw [if_neg (by decide)]
  apply Safe.bind
  · apply secure_newContext
    omega
  rintro _ _ ⟨rfl, rfl⟩
  have free : Secure thread (buffer locked.client .getFreeSpaceSize)
      { locked with refs := locked.refs + 1 } _ :=
    secure_getFreeSpaceSize key vacant
  apply free.bind
  rintro _ _ ⟨rfl, rfl⟩
  have start : Secure thread (buffer locked.client .getBuffer)
      { locked with refs := locked.refs + 1 } _ :=
    secure_read key rfl
  apply start.bind
  rintro _ _ ⟨sound, rfl, rfl⟩
  apply secure_post
  · rfl
  · exact key
  · refine ⟨drained, ?_⟩
    simp only [Stream.onBuffer, sound.getBuffer_eq vacant]
    rfl

/-- The window of a send is what the last receive has brought. -/
theorem secure_postSend (key : ghost.key = some ⟨stream, false⟩) (holding : stream.Holding) :
    Secure thread (postSend ghost.client) ghost (Posted ghost) := by
  have some := holding.some
  apply Safe.bind (secure_act (goes_postSend key holding))
  rintro _ ghost rfl
  apply secure_ifConnected
  apply secure_guarded_posted
  intro locked sameClient sameKey
  rw [sameClient]
  rw [sameKey] at key
  have batons : locked.batons = 1 := by simp [Ghost.batons, key]
  apply Safe.bind (secure_read key rfl)
  rintro _ locked ⟨sound, rfl, rfl⟩
  have stored : (stream.onBuffer .getContiguiousBytes).1 = stream.mBuffer.mARegionSize :=
    holding.getContiguiousBytes_eq
  rw [stored, if_neg (by omega)]
  apply Safe.bind
  · apply secure_newContext
    omega
  rintro _ _ ⟨rfl, rfl⟩
  have length : Secure thread (buffer locked.client .getContiguiousBytes)
      { locked with refs := locked.refs + 1 } _ :=
    secure_read key rfl
  apply length.bind
  rintro _ _ ⟨_, rfl, rfl⟩
  have start : Secure thread (buffer locked.client .getBufferStart)
      { locked with refs := locked.refs + 1 } _ :=
    secure_read key rfl
  apply start.bind
  rintro _ _ ⟨_, rfl, rfl⟩
  apply secure_post
  · rfl
  · exact key
  · refine ⟨holding, ?_⟩
    have fits := sound.size_le
    have length : Word.toUInt32 stream.mBuffer.mARegionSize = stream.mBuffer.mARegionSize := by
      apply Word.toUInt32_eq
      exact Nat.lt_of_le_of_lt fits (by decide)
    simp only [Stream.onBuffer, holding.getContiguiousBytes_eq, holding.getBufferStart_eq, length]

/-- A call that changes the buffer. -/
theorem secure_write {call : BufferCall} (key : ghost.key = some ⟨stream, false⟩)
    (kept : stream.Sound → (stream.onBuffer call).2.Sound) {lock : Lock} :
    Secure thread (guarded lock (buffer ghost.client call)) ghost fun _ next =>
      stream.Sound ∧ next = { ghost with key := some ⟨(stream.onBuffer call).2, false⟩ } := by
  apply secure_guarded
  have written : Secure thread (buffer ghost.client call)
      { ghost with locks := lock :: ghost.locks } _ :=
    secure_buffer key kept
  apply written.mono
  rintro _ _ ⟨sound, _, rfl⟩
  exact ⟨rfl, sound, rfl⟩

/-- Received bytes fit the window of the receive. -/
theorem secure_recvCompletion {len : ℕ} (key : ghost.key = some ⟨stream, false⟩)
    (arrived : stream.Arrived len) (received : 0 < len) :
    Secure thread (recvCompletion ghost.client len) ghost fun _ next =>
      ∃ held : Stream, held.Holding ∧ next = { ghost with key := some ⟨held, false⟩ } := by
  apply Safe.mono (secure_write key fun sound => sound.commit arrived)
  rintro _ _ ⟨sound, rfl⟩
  exact ⟨_, sound.holding_commit arrived received, rfl⟩

/-- Sent bytes are those at the front of the buffer. -/
theorem secure_sendCompletion {len : ℕ} (key : ghost.key = some ⟨stream, false⟩)
    (holding : stream.Holding) :
    Secure thread (ClientSession.sendCompletion ghost.client len) ghost fun _ next =>
      ∃ rest : Stream, (len = stream.mBuffer.mARegionSize → rest.Drained) ∧
        next = { ghost with key := some ⟨rest, false⟩ } := by
  apply Safe.mono (secure_write key fun sound => sound.remove holding len)
  rintro _ _ ⟨sound, rfl⟩
  refine ⟨_, ?_, rfl⟩
  rintro rfl
  exact sound.drained_remove holding

theorem secure_setUpSocket (calls : List SetUp) :
    Secure thread (setUpSocket calls) ghost fun _ next => next = ghost := by
  induction calls with
  | nil => exact rfl
  | cons call calls ih =>
      apply Safe.bind (secure_act (goes_setUp call))
      rintro (resultOk : Bool) _ rfl
      cases resultOk
      · exact rfl
      · exact ih

/-- An accepted connection hands its baton on. -/
theorem secure_acceptCompletion (key : ghost.key = some ⟨stream, false⟩)
    (drained : stream.Drained) :
    Secure thread (acceptCompletion ghost.client) ghost fun _ next =>
      ∃ posted, Posted ghost posted next := by
  apply Safe.bind (secure_act (goes_exchangeConnected true))
  rintro (connected : Bool) _ rfl
  cases connected
  · apply Safe.bind (secure_setUpSocket _)
    rintro resultOk _ rfl
    cases resultOk
    · exact secure_disconnectRequest key
    · apply Safe.bind (secure_preRecv key drained)
      intro posted next done
      exact ⟨posted, done⟩
  · exact secure_crash

/-! ## The dispatch loop -/

/-- A completed context is being handled: its reference is held, and the baton too when
the connection is to be closed. -/
structure Handled (client : ClientId) (completionOk : Bool) (ghost : Ghost) : Prop where
  locks : ghost.locks = []
  client : ghost.client = client
  refs : ghost.refs = 1
  closing : completionOk = false → ∃ stream, ghost.key = some ⟨stream, false⟩

theorem Posted.handled {client : ClientId} {posted : Bool} {next : Ghost}
    (done : Posted ghost posted next) (handled : Handled client false ghost) :
    Handled client posted next := by
  rcases done with ⟨rfl, rfl⟩ | ⟨rfl, rfl⟩
  · exact ⟨handled.locks, handled.client, handled.refs, Bool.noConfusion⟩
  · exact handled

theorem Handled.succeeds {client : ClientId} {completionOk : Bool}
    (handled : Handled client completionOk ghost) : Handled client true ghost :=
  ⟨handled.locks, handled.client, handled.refs, Bool.noConfusion⟩

/-- Every completion handler hands its baton on. -/
theorem secure_dispatch {packet : Packet} (handled : Handled ghost.client false ghost)
    (key : ghost.key = some ⟨stream, false⟩) (taken : stream.Taken packet)
    (received : packet.context.mIoType = .ioRecv → packet.ret = true ∧ 0 < packet.dwTransferred) :
    Secure thread (dispatch ghost.client packet.context packet.dwTransferred) ghost
      (Handled ghost.client) := by
  rw [Stream.Taken] at taken
  rw [dispatch]
  cases kind : packet.context.mIoType with
  | ioNone => exact secure_crash
  | ioDisconnect =>
      have spends : Spends ghost { ghost with key := none } := by
        refine ⟨rfl, rfl, ?_, Or.inr rfl⟩
        simp [Ghost.batons, key]
      have referenced := handled.refs
      apply Safe.bind
      · apply secure_releaseRef_kept spends
        simp only [referenced]
        omega
      · rintro _ _ rfl
        exact ⟨handled.locks, rfl, handled.refs, Bool.noConfusion⟩
  | ioAccept =>
      simp only [kind] at taken
      apply Safe.bind (secure_acceptCompletion key taken)
      rintro _ next ⟨posted, done⟩
      exact (done.handled handled).succeeds
  | ioRecvZero =>
      simp only [kind] at taken
      apply Safe.mono (secure_postRecv key taken)
      intro posted next done
      exact done.handled handled
  | ioSend =>
      simp only [kind] at taken
      rcases taken with ⟨holding, window, _⟩
      apply Safe.bind (secure_sendCompletion key holding)
      rintro _ _ ⟨rest, drained, rfl⟩
      by_cases whole : packet.context.mWsaBuf.len = packet.dwTransferred
      · rw [if_neg (not_not_intro whole)]
        have next : Secure thread (preRecv ghost.client)
            { ghost with key := some ⟨rest, false⟩ } _ :=
          secure_preRecv rfl (drained (whole.symm.trans window))
        apply next.mono
        intro posted next done
        apply done.handled
        exact ⟨handled.locks, rfl, handled.refs, fun _ => ⟨rest, rfl⟩⟩
      · rw [if_pos whole]
        exact ⟨handled.locks, rfl, handled.refs, fun _ => ⟨rest, rfl⟩⟩
  | ioRecv =>
      simp only [kind] at taken
      rcases received kind with ⟨succeeded, transferred⟩
      apply Safe.bind (secure_recvCompletion key (taken succeeded) transferred)
      rintro _ _ ⟨held, holding, rfl⟩
      have next : Secure thread (postSend ghost.client)
          { ghost with key := some ⟨held, false⟩ } _ :=
        secure_postSend rfl holding
      apply next.mono
      intro posted next done
      apply done.handled
      exact ⟨handled.locks, rfl, handled.refs, fun _ => ⟨held, rfl⟩⟩

/-- The handled context is deleted without a lock. -/
theorem Handled.delete {context : OverlappedIOContext} {completionOk : Bool}
    (handled : Handled context.mSessionObject completionOk ghost) :
    Secure thread (deleteIoContext context) ghost fun _ next => next.locks = [] := by
  have spends : Spends ghost { ghost with refs := 0 } := by
    refine ⟨rfl, rfl, ?_, Or.inl rfl⟩
    have batons : Ghost.batons { ghost with refs := 0 } = ghost.batons := rfl
    simp only [handled.refs, batons]
    omega
  exact secure_deleteIoContext handled.client.symm spends handled.locks

/-- A failed completion gives its baton to the disconnect. -/
theorem secure_failCompletion {context : OverlappedIOContext}
    (handled : Handled context.mSessionObject false ghost) :
    Secure thread (failCompletion context.mSessionObject context) ghost fun _ next =>
      next.locks = [] := by
  rcases handled.closing rfl with ⟨stream, key⟩
  have request : Secure thread (disconnectRequest context.mSessionObject) ghost _ :=
    handled.client ▸ secure_disconnectRequest key
  apply request.bind
  rintro _ next ⟨posted, done⟩
  apply Safe.bind (done.handled handled).delete
  intro _ next unlocked
  exact unlocked

/-- A completion is handled with the baton it brought. -/
theorem secure_handleCompletion {packet : Packet} (taken : stream.Taken packet)
    (handled : Handled packet.context.mSessionObject false ghost)
    (key : ghost.key = some ⟨stream, false⟩)
    (received : packet.context.mIoType = .ioRecv → packet.ret = true ∧ 0 < packet.dwTransferred) :
    Secure thread (handleCompletion packet.context.mSessionObject packet.context
      packet.dwTransferred) ghost fun _ next => next.locks = [] := by
  have dispatched : Secure thread (dispatch packet.context.mSessionObject packet.context
      packet.dwTransferred) ghost (Handled packet.context.mSessionObject) := by
    rw [← handled.client]
    exact secure_dispatch ⟨handled.locks, rfl, handled.refs, handled.closing⟩ key taken received
  apply dispatched.bind
  intro completionOk next handled
  cases completionOk
  · exact secure_failCompletion handled
  · apply Safe.bind handled.delete
    intro _ next unlocked
    exact unlocked

/-- A turn of a worker starts and ends with no lock held. -/
theorem secure_ioWorkerThread (unlocked : ghost.locks = []) :
    Secure thread ioWorkerThread ghost fun _ next => next.locks = [] := by
  apply Safe.bind (secure_act goes_getQueuedCompletionStatus)
  rintro ⟨context, ret, dwTransferred, waitTimeout⟩ _ ⟨stream, taken, rfl⟩
  have handled : Handled context.mSessionObject false
      ⟨ghost.locks, context.mSessionObject, 1, some ⟨stream, false⟩⟩ :=
    ⟨unlocked, rfl, rfl, fun _ => ⟨stream, rfl⟩⟩
  dsimp only
  by_cases failed : ret = false ∨ dwTransferred = 0
  · rw [if_pos failed]
    cases waitTimeout
    · by_cases transfer : context.mIoType = .ioRecv ∨ context.mIoType = .ioSend
      · rw [if_pos transfer]
        exact secure_failCompletion handled
      · rw [if_neg transfer]
        apply secure_handleCompletion taken handled rfl
        intro kind
        exact absurd (Or.inl kind) transfer
    · exact unlocked
  · rw [if_neg failed]
    apply secure_handleCompletion taken handled rfl
    intro _
    cases ret
    · exact absurd (Or.inl rfl) failed
    · exact ⟨rfl, Nat.pos_of_ne_zero fun zero => failed (Or.inr zero)⟩

/-! ## The accepting loop -/

/-- What a thread holds between two rounds of its loop. -/
def Mode.Ends (thread : Thread workers) (mode : Mode) (ghost : Ghost) : Prop :=
  match thread, mode with
  | none, .accepting => ghost.locks = [.mLock]
  | _, _ => ghost.locks = []

/-- The accepting loop starts under the lock of the manager. -/
theorem secure_acceptSessions (unlocked : ghost.locks = []) :
    Secure (none : Thread workers) acceptSessions ghost
      (Mode.Ends (none : Thread workers)) := by
  apply Safe.bind (secure_act (goes_enterLock .mLock))
  rintro _ _ rfl
  exact congrArg _ unlocked

theorem secure_leave {mode : Mode} (locked : ghost.locks = [.mLock]) (left : mode ≠ .accepting) :
    Secure (none : Thread workers) (leaveLock .mLock >>= fun _ => return mode) ghost
      (Mode.Ends (none : Thread workers)) := by
  apply Safe.bind (secure_act (goes_leaveLock locked))
  rintro _ _ rfl
  cases mode with
  | accepting => exact absurd rfl left
  | _ => exact rfl

/-- A round of the accepting loop keeps the lock of the manager. -/
theorem secure_acceptSession (locked : ghost.locks = [.mLock]) :
    Secure (none : Thread workers) acceptSession ghost
      (Mode.Ends (none : Thread workers)) := by
  apply Safe.bind (secure_act goes_belowMaxConnection)
  rintro (below : Bool) ghost rfl
  cases below
  · exact secure_leave locked (by decide)
  · apply Safe.bind (secure_act goes_popFreeSession)
    rintro newClient _ ⟨stream, drained, rfl⟩
    apply Safe.bind (secure_act goes_countIssue)
    rintro _ _ rfl
    have issued : Secure (none : Thread workers) (addRef newClient)
        ⟨ghost.locks, newClient, 0, some ⟨stream, true⟩⟩ _ :=
      secure_issue rfl rfl
    apply issued.bind
    rintro _ _ rfl
    have accepted : Secure (none : Thread workers) (postAccept newClient)
        ⟨ghost.locks, newClient, 0, some ⟨stream, false⟩⟩ _ :=
      secure_postAccept rfl drained
    apply accepted.bind
    rintro _ _ (⟨rfl, rfl⟩ | ⟨rfl, rfl⟩)
    · exact locked
    · exact secure_leave locked (by decide)

/-- Every turn of a thread keeps to the discipline. -/
theorem secure_body (mode : Mode) (ends : mode.Ends thread ghost) :
    Secure thread (IocpManager.body thread mode) ghost (Mode.Ends thread) := by
  cases thread with
  | some worker => exact secure_ioWorkerThread ends
  | none =>
      cases mode with
      | accept => exact secure_acceptSessions ends
      | accepting => exact secure_acceptSession ends
      | iocp => exact ends
      | stopped => exact ends

end Functions

end Gsp.Homework4
