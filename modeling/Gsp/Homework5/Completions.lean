import Gsp.Homework5.Contexts

/-!
# What each function does to the owners

From the rules of the operations to the functions of a session, the jobs of a worker
and the accepting loop. A function called for a completed context leaves a reference
for it, with or without the use of the receive buffer.
-/

namespace Gsp.Homework5.Locking.Owners

open Program Tokens

section Secure

variable {workers : ℕ} {thread : Thread workers} {ghost : Ghost workers} {client : ClientId}
  {self : SessionId} {kept : Multiset (SessionId × Token)} {token : Token} {Value : Type}
  {context : Context}

/-- The task of the thread is safe from what it holds. -/
abbrev Secure (thread : Thread workers) {Value : Type} (task : Task Value) (ghost : Ghost workers)
    (post : Value → Ghost workers → Prop) : Prop :=
  (program workers).logged.Safe (discipline workers) thread task ghost post

theorem secure_act {operation : Operation} {post : operation.Result → Ghost workers → Prop}
    (goes : Goes thread operation ghost post) : Secure thread (act operation) ghost post :=
  goes

/-- An operation on nothing owned leaves the ghost alone. -/
theorem secure_aside {operation : Operation} (aside : isAside operation = true) :
    Secure thread (act operation) ghost fun _ next => next = ghost :=
  secure_act (goes_aside aside)

theorem secure_crash {post : Value → Ghost workers → Prop} :
    Secure thread crash ghost post := by
  apply Steps.mono goes_crash
  · exact fun result _ _ => result.elim
  · exact fun _ _ => True

theorem secure_crashAssert (condition : Bool) :
    Secure thread (crashAssert condition) ghost fun _ next => next = ghost := by
  cases condition
  · exact secure_crash
  · exact rfl

/-- A block under a lock; every send is counted when the lock of its buffer is left. -/
theorem secure_guarded {lock : Lock} {block : Task Value} {post : Value → Ghost workers → Prop}
    (inside : (∀ client, lock = .mSendBufferLock (.client client) →
        ghost.share client .uncounted = 0) →
      Secure thread block { ghost with locks := lock :: ghost.locks } fun value next =>
        next.locks = lock :: ghost.locks ∧
          (∀ client, lock = .mSendBufferLock (.client client) →
            next.share client .uncounted = 0) ∧
          post value { next with locks := ghost.locks }) :
    Secure thread (guarded lock block) ghost post := by
  apply Safe.bind (secure_act (goes_enterLock lock))
  rintro _ _ ⟨rfl, counted⟩
  apply Safe.bind (inside counted)
  rintro value next ⟨held, counted, holds⟩
  apply Safe.bind (secure_act (goes_leaveLock held counted))
  rintro _ _ rfl
  exact holds

theorem secure_classLock (mIoType : IOType) :
    Secure thread (guarded (.classLock mIoType) (pure ())) ghost fun _ next => next = ghost := by
  apply secure_guarded
  intro _
  exact safe_pure ⟨rfl, nofun, rfl⟩

/-! ## References and contexts -/

theorem secure_sessionReset
    (tokens_eq : ghost.tokens = own (.client client) {.returning} + kept) :
    Secure thread (sessionReset client) ghost fun _ next =>
      next = { ghost with tokens := own (.client client) {.cleared} + kept, receive := none } := by
  apply Safe.bind (secure_act (goes_storeConnected tokens_eq))
  rintro _ _ rfl
  apply Safe.bind (secure_act (goes_storeRefCount tokens_eq))
  rintro _ _ rfl
  apply Safe.bind (secure_act (goes_resetRecv tokens_eq))
  rintro _ _ rfl
  apply Safe.bind (secure_act (goes_enterLock _))
  rintro _ _ ⟨rfl, counted⟩
  apply Safe.bind
  · exact secure_act (goes_resetSend rfl List.mem_cons_self (counted client rfl))
  · rintro _ _ rfl
    apply Safe.mono
    · apply secure_act
      apply goes_leaveLock rfl
      intro other same
      cases same
      have none := counted client rfl
      rw [Ghost.share_own rfl] at none ⊢
      simpa using none
    · rintro _ _ rfl
      rfl

/-- The session goes back to the free list. -/
theorem secure_returnClientSession
    (tokens_eq : ghost.tokens = own (.client client) {.returning} + kept) :
    Secure thread (returnClientSession client) ghost fun _ next =>
      next = { ghost with tokens := kept, receive := none } := by
  apply secure_guarded
  intro _
  apply Safe.bind (secure_aside rfl)
  rintro connected _ rfl
  apply Safe.bind (secure_aside rfl)
  rintro count _ rfl
  apply Safe.bind (secure_crashAssert _)
  rintro _ _ rfl
  apply Safe.bind
  · apply secure_sessionReset
    exact tokens_eq
  · rintro _ _ rfl
    apply Safe.bind (secure_act (goes_pushFreeSession rfl))
    rintro _ _ rfl
    apply Safe.mono (secure_aside rfl)
    rintro _ _ rfl
    exact ⟨rfl, nofun, rfl⟩

/-- A released reference takes its token. -/
theorem secure_releaseRef (tokens_eq : ghost.tokens = own self {token} + kept)
    (reference : token = .ref ∨ token = .hold ∨ token = .baton) :
    Secure thread (releaseRef self) ghost fun _ next =>
      next = { ghost with tokens := kept, receive := none } := by
  cases self with
  | server index =>
      apply Safe.bind (secure_act (goes_releaseServerRef index tokens_eq))
      rintro (count : ℤ) _ rfl
      apply Safe.bind (secure_crashAssert _)
      rintro _ _ rfl
      split <;> exact rfl
  | client client =>
      apply Safe.bind (secure_act (goes_releaseRef tokens_eq reference))
      rintro (count : ℤ) _ rfl
      apply Safe.bind (secure_crashAssert _)
      rintro _ _ rfl
      by_cases last : count = 0
      · simp only [if_pos last]
        exact secure_returnClientSession rfl
      · simp only [if_neg last]
        exact congrArg (fun tokens => { ghost with tokens := tokens, receive := none })
          (eq_own_zero kept).symm

/-- Who may add a reference: a worker, anyone to a session with a server, and whoever
issues a session. -/
def MayAdd (thread : Thread workers) (self : SessionId) (ghost : Ghost workers) : Prop :=
  (∃ index, thread = .worker index) ∨ (∃ index, self = .server index) ∨
    0 < ghost.tokens.count (self, .start)

theorem secure_newContext (mayAdd : MayAdd thread self ghost) (mIoType : IOType) :
    Secure thread (newContext self mIoType) ghost fun context next =>
      context = ⟨self, mIoType, ⟨0, none⟩⟩ ∧
        next = { ghost with tokens := own self {.ref} + ghost.tokens } := by
  apply Safe.bind (secure_classLock mIoType)
  rintro _ _ rfl
  apply Safe.bind
  · apply Safe.bind (secure_act (goes_addRef mayAdd))
    rintro count _ rfl
    exact secure_crashAssert _
  · rintro _ _ rfl
    exact ⟨rfl, rfl⟩

/-- A deleted context gives its token back. -/
theorem secure_deleteIoContext (owner : context.mSessionObject = self)
    (tokens_eq : ghost.tokens = own self {token} + kept)
    (reference : token = .ref ∨ token = .baton) :
    Secure thread (deleteIoContext context) ghost fun _ next =>
      next = { ghost with tokens := kept, receive := none } := by
  rw [deleteIoContext, owner]
  apply Safe.bind
  · apply secure_releaseRef tokens_eq
    exact reference.imp_right .inr
  · rintro _ _ rfl
    split
    · exact secure_crash
    · exact secure_classLock _

/-- Posted or given up, the context takes along what it needs. -/
theorem secure_post (owner : context.mSessionObject = self)
    (tokens_eq : ghost.tokens = own self {.ref} + (own self (stake context.mIoType) + kept))
    (accepted : ∀ client, self = .client client → context.mIoType ≠ .ioConnect)
    (locked : ∀ client, self = .client client → context.mIoType = .ioSend →
      Lock.mSendBufferLock (.client client) ∈ ghost.locks)
    (posted : ∀ client, self = .client client → context.mIoType = .ioRecv →
      ∃ buffer touched, ghost.receive = some (client, buffer, touched) ∧
        Posted client context.mWsaBuf buffer touched) :
    Secure thread (post context) ghost fun posted next =>
      next = { ghost with
        tokens :=
          own self (if posted then leaves context.mIoType else stake context.mIoType) + kept
        receive := none } := by
  subst owner
  apply Safe.bind (secure_act (goes_submit ?_ accepted locked posted))
  · rintro (submitted : Bool) _ rfl
    cases submitted
    · apply Safe.bind (secure_deleteIoContext rfl tokens_eq (.inl rfl))
      rintro _ _ rfl
      exact rfl
    · exact rfl
  · rw [tokens_eq, needs, own_add, add_assoc]

/-- Whoever disconnects a session keeps the reference for its issue when `DisconnectEx`
fails. -/
theorem secure_disconnectRequest
    (mayAdd : (∃ index, thread = .worker index) ∨ ∃ index, self = .server index) :
    Secure thread (disconnectRequest self) ghost fun _ next =>
      ∃ left receive, amount left .uncounted = 0 ∧
        next = { ghost with tokens := own self left + ghost.tokens, receive := receive } := by
  apply Safe.bind (secure_act goes_disconnect)
  rintro (connected : Bool) _ rfl
  cases connected
  · exact ⟨0, _, rfl, rfl⟩
  · apply Safe.bind (secure_newContext (mayAdd.imp_right .inl) _)
    rintro _ _ ⟨rfl, rfl⟩
    apply Safe.bind
    · apply secure_post
      · rfl
      · rfl
      · simp
      · simp
      · simp
    · rintro posted _ rfl
      refine ⟨_, _, ?_, rfl⟩
      cases posted <;> simp [leaves, stake]

/-! ## Receiving -/

/-- A reference for the completed context is left. -/
def Keeps (self : SessionId) (kept : Multiset (SessionId × Token))
    (ghost next : Ghost workers) : Prop :=
  ∃ token left receive, (token = .ref ∨ token = .baton) ∧
    next = { ghost with
      tokens := own self {token} + (own self left + kept)
      receive := receive }

theorem Keeps.intro {tokens : Multiset (SessionId × Token)}
    {receive : Option (ClientId × CircularBuffer × List (Entry workers))}
    (reference : token = .ref ∨ token = .baton) (left : Multiset Token)
    (tokens_eq : tokens = own self {token} + (own self left + kept)) :
    Keeps self kept ghost { ghost with tokens := tokens, receive := receive } := by
  rw [tokens_eq]
  exact ⟨token, left, receive, reference, rfl⟩

/-- A receive of no bytes owns what it adds. -/
theorem secure_preRecv (worker : ∃ index, thread = .worker index)
    (tokens_eq : ghost.tokens = own self {.baton} + kept) :
    Secure thread (preRecv self) ghost fun _ next => Keeps self kept ghost next := by
  apply Safe.bind (secure_aside rfl)
  rintro (connected : Bool) _ rfl
  cases connected
  · apply Keeps.intro (.inr rfl) 0
    rw [tokens_eq, ← eq_own_zero]
  · apply Safe.bind (secure_newContext (.inl worker) _)
    rintro _ _ ⟨rfl, rfl⟩
    apply Safe.mono
    · apply secure_post
      · rfl
      · exact congrArg _ tokens_eq
      · simp
      · simp
      · simp
    · rintro posted _ rfl
      cases posted
      · apply Keeps.intro (.inr rfl) 0
        rw [← eq_own_zero]
        rfl
      · apply Keeps.intro (.inl rfl) 0
        rw [← eq_own_zero]
        rfl

/-- Who has the baton looks at the receive buffer. -/
theorem secure_recvBuffer (tokens_eq : ghost.tokens = own self {.baton} + kept) (call : BufferCall)
    (looks : ∀ transferred, call ≠ .commit transferred) :
    Secure thread (recvBuffer self call) ghost fun _ next =>
      ∃ receive, next = { ghost with receive := receive } := by
  cases self with
  | server index =>
      apply Safe.mono (secure_act (goes_recvBufferServer index call))
      rintro _ _ rfl
      exact ⟨_, rfl⟩
  | client client =>
      apply Safe.mono
      · apply secure_act
        apply goes_recvBuffer
        · rw [Ghost.share_own tokens_eq]
          simp
        · intro transferred same
          exact absurd same (looks transferred)
      · rintro _ _ ⟨buffer, touched, entry, called, known, rfl, rfl⟩
        exact ⟨_, rfl⟩

/-- The context of a receive goes out with the free space of the buffer. -/
theorem secure_postWindow
    (tokens_eq : ghost.tokens = own self {.ref} + (own self {.baton} + kept)) :
    Secure thread
      (do
        let len : ℕ ← recvBuffer self .getFreeSpaceSize
        let buf : ℕ ← recvBuffer self .getBuffer
        post ⟨self, .ioRecv, ⟨Word.toUInt32 len, some buf⟩⟩)
      ghost fun _ next => Keeps self kept ghost next := by
  have posts {len buf : ℕ} {receive : Option (ClientId × CircularBuffer × List (Entry workers))}
      (posted : ∀ client, self = .client client → ∃ buffer touched,
        receive = some (client, buffer, touched) ∧
          Posted client ⟨Word.toUInt32 len, some buf⟩ buffer touched) :
      Secure thread (post ⟨self, .ioRecv, ⟨Word.toUInt32 len, some buf⟩⟩)
        { ghost with receive := receive } fun _ next => Keeps self kept ghost next := by
    apply Safe.mono
    · apply secure_post
      · rfl
      · exact tokens_eq
      · simp
      · simp
      · exact fun client same _ => posted client same
    · rintro posted _ rfl
      cases posted
      · apply Keeps.intro (.inr rfl) 0
        rw [← eq_own_zero]
        rfl
      · apply Keeps.intro (.inl rfl) 0
        rw [← eq_own_zero]
        rfl
  cases self with
  | server index =>
      apply Safe.bind (secure_act (goes_recvBufferServer index _))
      rintro (len : ℕ) _ rfl
      apply Safe.bind (secure_act (goes_recvBufferServer index _))
      rintro (buf : ℕ) _ rfl
      exact posts (by rintro _ ⟨⟩)
  | client client =>
      have baton (receive : Option (ClientId × CircularBuffer × List (Entry workers))) :
          0 < Ghost.share client { ghost with receive := receive } .baton := by
        rw [Ghost.share, tokens_eq, Multiset.count_add, Multiset.count_add, count_own, count_own]
        simp
      apply Safe.bind (secure_act (goes_recvBuffer (baton _) .getFreeSpaceSize (by rintro _ ⟨⟩)))
      rintro (len : ℕ) _ ⟨buffer, touched, asked, asks, _, rfl, rfl⟩
      apply Safe.bind (secure_act (goes_recvBuffer (baton _) .getBuffer (by rintro _ ⟨⟩)))
      rintro (buf : ℕ) _ ⟨_, _, handed, hands, known, rfl, rfl⟩
      rcases known _ _ rfl with ⟨rfl, rfl⟩
      apply posts
      rintro other ⟨⟩
      refine ⟨_, _, rfl, touched, asked, handed, ?_, ?_⟩
      · rw [List.append_assoc]
        rfl
      · constructor
        · exact asks.op
        · exact hands.op
        · exact hands.caller.trans asks.caller.symm
        · rw [asks.buffer]
          rfl
        · exact hands.buffer
        · rw [asks.buffer]
          rfl

/-- A receive owns what it adds. -/
theorem secure_postRecv (worker : ∃ index, thread = .worker index)
    (tokens_eq : ghost.tokens = own self {.baton} + kept) :
    Secure thread (postRecv self) ghost fun _ next => Keeps self kept ghost next := by
  apply Safe.bind (secure_aside rfl)
  rintro (connected : Bool) _ rfl
  cases connected
  · apply Keeps.intro (.inr rfl) 0
    rw [tokens_eq, ← eq_own_zero]
  · apply Safe.bind (secure_recvBuffer tokens_eq .getFreeSpaceSize (by rintro _ ⟨⟩))
    rintro (free : ℕ) _ ⟨receive, rfl⟩
    by_cases full : free = 0
    · simp only [if_pos full]
      apply Keeps.intro (.inr rfl) 0
      rw [tokens_eq, ← eq_own_zero]
    · simp only [if_neg full]
      apply Safe.bind (secure_newContext (.inl worker) _)
      rintro _ _ ⟨rfl, rfl⟩
      exact secure_postWindow (congrArg _ tokens_eq)

/-- What has arrived is committed. -/
theorem secure_recvCompletion (tokens_eq : ghost.tokens = own self {.baton} + kept)
    (transferred : ℕ)
    (filled : ∀ client, self = .client client → ∃ buffer touched,
      ghost.receive = some (client, buffer, touched) ∧
        Filled client thread transferred buffer touched) :
    Secure thread (recvCompletion self transferred) ghost fun _ next =>
      ∃ receive, next = { ghost with receive := receive } := by
  cases self with
  | server index =>
      apply Safe.mono (secure_act (goes_recvBufferServer index _))
      rintro _ _ rfl
      exact ⟨_, rfl⟩
  | client client =>
      apply Safe.mono
      · apply secure_act
        apply goes_recvBuffer
        · rw [Ghost.share_own tokens_eq]
          simp
        · rintro _ ⟨⟩
          exact filled client rfl
      · rintro _ _ ⟨buffer, touched, entry, called, known, rfl, rfl⟩
        exact ⟨_, rfl⟩

/-! ## Sending -/

/-- With the use of the receive buffer a thread may write to the send buffer. -/
theorem secure_postSend (tokens_eq : ghost.tokens = own self {.baton} + kept) (data : Option ℕ)
    (len : ℕ) :
    Secure thread (postSend self data len) ghost fun _ next =>
      ∃ receive, next = { ghost with receive := receive } := by
  have baton (client : ClientId) (same : self = .client client) :
      0 < ghost.share client .baton := by
    subst same
    rw [Ghost.share_own tokens_eq]
    simp
  apply Safe.bind (secure_aside rfl)
  rintro (connected : Bool) _ rfl
  cases connected
  · exact ⟨_, rfl⟩
  · apply secure_guarded
    intro counted
    apply Safe.bind
    · apply secure_act
      apply goes_sendBuffer
      exact fun client same => .inl (baton client same)
    · rintro (free : ℕ) _ rfl
      by_cases full : free < len
      · simp only [if_pos full]
        exact ⟨rfl, counted, _, rfl⟩
      · simp only [if_neg full]
        apply Safe.bind (secure_aside rfl)
        rintro _ _ rfl
        apply Safe.bind
        · apply secure_act
          apply goes_sendBuffer
          exact fun client same => .inl (baton client same)
        · rintro (destData : ℕ) _ rfl
          apply Safe.bind (secure_act (goes_memcpy _ _ _ (by exact baton)))
          rintro _ _ rfl
          apply Safe.bind
          · apply secure_act
            apply goes_sendBuffer
            exact fun client same => .inl (baton client same)
          · rintro _ _ rfl
            exact ⟨rfl, counted, _, rfl⟩

theorem secure_echoBack (tokens_eq : ghost.tokens = own self {.baton} + kept) :
    Secure thread (echoBack self) ghost fun _ next =>
      ∃ receive, next = { ghost with receive := receive } := by
  apply Safe.bind (secure_recvBuffer tokens_eq .getContiguiousBytes (by rintro _ ⟨⟩))
  rintro (len : ℕ) _ ⟨receive, rfl⟩
  by_cases empty : len = 0
  · simp only [if_pos empty]
    exact ⟨_, rfl⟩
  · simp only [if_neg empty]
    apply Safe.bind (secure_recvBuffer (by exact tokens_eq) .getBufferStart (by rintro _ ⟨⟩))
    rintro (start : Option ℕ) _ ⟨receive, rfl⟩
    apply Safe.bind (secure_postSend (by exact tokens_eq) _ _)
    rintro (sent : Bool) _ ⟨receive, rfl⟩
    cases sent
    · exact ⟨_, rfl⟩
    · apply Safe.mono (secure_recvBuffer (by exact tokens_eq) (.remove len) (by rintro _ ⟨⟩))
      rintro _ _ ⟨receive, rfl⟩
      exact ⟨_, rfl⟩

/-- The reference of a send is added without another one. -/
theorem secure_flushSend (worker : ∃ index, thread = .worker index) :
    Secure thread (flushSend self) ghost fun _ next => next.locks = ghost.locks := by
  apply Safe.bind (secure_aside rfl)
  rintro (connected : Bool) _ rfl
  cases connected
  · apply Safe.bind (secure_disconnectRequest (.inl worker))
    rintro _ _ ⟨left, receive, _, rfl⟩
    exact rfl
  · apply secure_guarded
    intro counted
    have looks (call : BufferCall)
        (same : ∀ buffer : CircularBuffer, (buffer.onCall call).2 = buffer)
        {ghost : Ghost workers} : Secure thread (sendBuffer self call) ghost fun _ next =>
          next = ghost :=
      secure_act (goes_sendBuffer call fun _ _ => .inr (.inr same))
    apply Safe.bind (looks .getContiguiousBytes fun _ => rfl)
    rintro (contiguious : ℕ) _ rfl
    apply Safe.bind (secure_aside rfl)
    rintro (pending : ℤ) _ rfl
    by_cases empty : contiguious = 0
    · simp only [if_pos empty]
      exact ⟨rfl, counted, trivial⟩
    · simp only [if_neg empty]
      by_cases sending : 0 < pending
      · simp only [if_pos sending]
        exact ⟨rfl, counted, trivial⟩
      · simp only [if_neg sending]
        apply Safe.bind (secure_newContext (.inl worker) _)
        rintro _ _ ⟨rfl, rfl⟩
        apply Safe.bind (looks .getContiguiousBytes fun _ => rfl)
        rintro (len : ℕ) _ rfl
        apply Safe.bind (looks .getBufferStart fun _ => rfl)
        rintro (buf : Option ℕ) _ rfl
        apply Safe.bind
        · apply secure_post
          · rfl
          · exact congrArg _ (eq_own_zero _)
          · simp
          · rintro client rfl _
            exact List.mem_cons_self
          · simp
        · rintro posted _ rfl
          cases posted
          · apply Safe.bind (secure_disconnectRequest (.inl worker))
            rintro _ _ ⟨left, receive, uncounted, rfl⟩
            refine ⟨rfl, ?_, trivial⟩
            rintro client ⟨⟩
            have none := counted client rfl
            rw [Ghost.share_own rfl, uncounted, Nat.zero_add]
            simpa [stake, ← eq_own_zero, Ghost.share] using none
          · apply Safe.bind (secure_act (goes_countSend rfl))
            rintro _ _ rfl
            apply Safe.bind (secure_aside rfl)
            rintro _ _ rfl
            exact ⟨rfl, counted, trivial⟩

/-- The completed send gives up its part of the buffer and its count. -/
theorem secure_sendCompletion (tokens_eq : ghost.tokens = own self {.sending} + kept)
    (transferred : ℕ) :
    Secure thread (sendCompletion self transferred) ghost fun _ next =>
      next = { ghost with tokens := own self {.ref} + kept } := by
  apply secure_guarded
  intro counted
  apply Safe.bind
  · apply secure_act
    apply goes_sendBuffer
    rintro client rfl
    right
    left
    rw [Ghost.share_own (by exact tokens_eq)]
    simp
  · rintro _ _ rfl
    apply Safe.mono (secure_act (goes_countSent (by exact tokens_eq)))
    rintro _ _ rfl
    refine ⟨rfl, ?_, rfl⟩
    rintro client ⟨⟩
    have none := counted client rfl
    rw [Ghost.share_own tokens_eq] at none
    rw [Ghost.share_own rfl]
    simpa using none

/-! ## Connecting -/

theorem secure_setUpSocket (calls : List SetUp) :
    Secure thread (setUpSocket calls) ghost fun _ next => next = ghost := by
  induction calls with
  | nil => exact rfl
  | cons call calls ih =>
      apply Safe.bind (secure_aside rfl)
      rintro (resultOk : Bool) _ rfl
      cases resultOk
      · exact rfl
      · exact ih

theorem secure_startRef (tokens_eq : ghost.tokens = own (.client client) {.fresh} + kept) :
    Secure thread (addRef (.client client)) ghost fun _ next =>
      next = { ghost with tokens := own (.client client) {.start} + kept } := by
  apply Safe.bind (secure_act (goes_startRef tokens_eq))
  rintro (count : ℤ) _ rfl
  exact secure_crashAssert _

/-- A posted accept owns the start of its session. -/
theorem secure_postAccept (tokens_eq : ghost.tokens = own (.client client) {.start} + kept) :
    Secure thread (postAccept client) ghost fun _ next => next.locks = ghost.locks := by
  apply Safe.bind
  · apply secure_newContext
    right
    right
    rw [tokens_eq, Multiset.count_add, count_own]
    simp
  · rintro _ _ ⟨rfl, rfl⟩
    apply Safe.mono
    · apply secure_post
      · rfl
      · exact congrArg _ tokens_eq
      · simp
      · simp
      · simp
    · rintro _ _ rfl
      exact rfl

/-- An accepted connection hands its tokens on. -/
theorem secure_acceptCompletion (worker : ∃ index, thread = .worker index)
    (tokens_eq : ghost.tokens = own (.client client) {.start, .ref} + kept) :
    Secure thread (acceptCompletion client) ghost fun _ next =>
      Keeps (.client client) kept ghost next := by
  apply Safe.bind (secure_act (goes_connect tokens_eq))
  rintro (connected : Bool) _ rfl
  cases connected
  · apply Safe.bind (secure_setUpSocket _)
    rintro (resultOk : Bool) _ rfl
    cases resultOk
    · apply Safe.mono (secure_disconnectRequest (.inl worker))
      rintro _ _ ⟨left, receive, _, rfl⟩
      exact Keeps.intro (.inr rfl) left (add_left_comm _ _ _)
    · apply Safe.bind (secure_preRecv worker rfl)
      rintro _ _ ⟨token, left, receive, reference, rfl⟩
      exact ⟨token, left, receive, reference, rfl⟩
  · exact secure_crash

theorem secure_connectRequest (index : ℕ) :
    Secure thread (connectRequest index) ghost fun _ next => next.locks = ghost.locks := by
  apply Safe.bind (secure_aside rfl)
  rintro (connected : Bool) _ rfl
  cases connected
  · apply Safe.bind (secure_setUpSocket _)
    rintro (resultOk : Bool) _ rfl
    cases resultOk
    · exact rfl
    · apply Safe.bind (secure_newContext (.inr (.inl ⟨index, rfl⟩)) _)
      rintro _ _ ⟨rfl, rfl⟩
      apply Safe.bind
      · apply secure_post
        · rfl
        · exact congrArg _ (eq_own_zero _)
        · simp
        · simp
        · simp
      · rintro _ _ rfl
        exact rfl
  · exact secure_crash

/-- A connected session hands its tokens on. -/
theorem secure_connectCompletion (worker : ∃ index, thread = .worker index) (index : ℕ)
    (tokens_eq : ghost.tokens = own (.server index) {.baton} + kept) :
    Secure thread (connectCompletion index) ghost fun _ next =>
      Keeps (.server index) kept ghost next := by
  have unchanged : Keeps (.server index) kept ghost ghost := by
    apply Keeps.intro (.inr rfl) 0
    rw [tokens_eq, ← eq_own_zero]
  apply Safe.bind (secure_aside rfl)
  rintro (updated : Bool) _ rfl
  cases updated
  · exact unchanged
  · apply Safe.bind (secure_setUpSocket _)
    rintro (resultOk : Bool) _ rfl
    cases resultOk
    · exact secure_crash
    · apply Safe.bind (secure_preRecv worker tokens_eq)
      rintro _ _ keeps
      apply Safe.bind (secure_act (goes_connectServer index))
      rintro _ _ rfl
      apply Safe.mono (secure_crashAssert _)
      rintro _ _ rfl
      exact keeps

/-! ## The threads -/

/-- The reference of the completed context is kept. -/
theorem secure_dispatch {dwTransferred : ℕ} (worker : ∃ index, thread = .worker index)
    (tokens_eq : ghost.tokens = own self (brings context.mIoType) + kept)
    (filled : ∀ client, self = .client client → context.mIoType = .ioRecv →
      ∃ buffer touched, ghost.receive = some (client, buffer, touched) ∧
        Filled client thread dwTransferred buffer touched) :
    Secure thread (dispatch self context dwTransferred) ghost fun _ next =>
      Keeps self kept ghost next := by
  unfold dispatch
  cases kind : context.mIoType with
  | ioNone => exact secure_crash
  | ioConnect =>
      rw [kind] at tokens_eq
      cases self with
      | client client => exact secure_crash
      | server index =>
          apply Safe.bind (secure_connectCompletion worker index tokens_eq)
          rintro _ _ keeps
          exact keeps
  | ioDisconnect =>
      rw [kind, brings, own_pair, add_comm (own _ _), add_assoc] at tokens_eq
      apply Safe.bind (secure_releaseRef tokens_eq (.inr (.inl rfl)))
      rintro _ _ rfl
      exact Keeps.intro (.inl rfl) 0 (congrArg _ (eq_own_zero _))
  | ioAccept =>
      rw [kind] at tokens_eq
      cases self with
      | server index => exact secure_crash
      | client client =>
          apply Safe.bind (secure_acceptCompletion worker tokens_eq)
          rintro _ _ keeps
          exact keeps
  | ioRecvZero =>
      rw [kind] at tokens_eq
      cases self <;> exact secure_postRecv worker tokens_eq
  | ioSend =>
      rw [kind] at tokens_eq
      cases self <;>
      · apply Safe.bind (secure_sendCompletion tokens_eq _)
        rintro _ _ rfl
        exact Keeps.intro (.inl rfl) 0 (congrArg _ (eq_own_zero _))
  | ioRecv =>
      rw [kind] at tokens_eq
      have filled := fun client same => filled client same kind
      cases self <;>
      · apply Safe.bind (secure_recvCompletion tokens_eq _ filled)
        rintro _ _ ⟨receive, rfl⟩
        apply Safe.bind (secure_echoBack (by exact tokens_eq))
        rintro _ _ ⟨receive, rfl⟩
        apply Safe.mono (secure_preRecv worker (by exact tokens_eq))
        rintro _ _ ⟨token, left, receive, reference, rfl⟩
        exact ⟨token, left, receive, reference, rfl⟩

/-- A thread has the lock of the manager only in the accepting loop. -/
def Ends (thread : Thread workers) (mode : Mode) (ghost : Ghost workers) : Prop :=
  ghost.locks = if thread = .main ∧ mode = .accepting then [.mLock] else []

theorem Ends.intro {mode : Mode} (outside : ¬(thread = .main ∧ mode = .accepting))
    (unlocked : ghost.locks = []) : Ends thread mode ghost := by
  rw [Ends, if_neg outside]
  exact unlocked

theorem Ends.unlocked {mode : Mode} (ends : Ends thread mode ghost)
    (outside : ¬(thread = .main ∧ mode = .accepting)) : ghost.locks = [] := by
  rwa [Ends, if_neg outside] at ends

/-- A handler ends with its tokens given back. -/
theorem secure_closeJob {completionOk : Bool} (worker : ∃ index, thread = .worker index)
    (unlocked : ghost.locks = []) (owner : context.mSessionObject = self)
    (tokens_eq : ghost.tokens = own self {token} + kept)
    (reference : token = .ref ∨ token = .baton) :
    Secure thread (closeJob self context completionOk) ghost fun mode next =>
      Ends thread mode next := by
  have closes {left : Multiset (SessionId × Token)}
      {receive : Option (ClientId × CircularBuffer × List (Entry workers))} :
      Secure thread
        (do
          deleteIoContext context
          return Mode.sendJob)
        { ghost with tokens := own self {token} + left, receive := receive }
        fun mode next => Ends thread mode next := by
    apply Safe.bind (secure_deleteIoContext owner rfl reference)
    rintro _ _ rfl
    exact Ends.intro (by simp) unlocked
  cases completionOk
  · apply Safe.bind (secure_disconnectRequest (.inl worker))
    rintro _ _ ⟨left, receive, _, rfl⟩
    rw [tokens_eq, add_left_comm]
    exact closes
  · have same : ghost = { ghost with
        tokens := own self {token} + kept, receive := ghost.receive } :=
      congrArg (fun tokens => { ghost with tokens := tokens }) tokens_eq
    rw [same]
    exact closes

theorem gains_eq {packet : Packet}
    (succeeded : ¬((packet.ret = false ∨ packet.dwTransferred = 0) ∧
      (packet.context.mIoType = .ioRecv ∨ packet.context.mIoType = .ioSend))) :
    gains packet = brings packet.context.mIoType := by
  rw [gains, if_neg]
  rintro ⟨kind, failed⟩
  exact succeeded ⟨failed, .inr kind⟩

/-- A failed receive or send still brings a reference. -/
theorem exists_gains {packet : Packet}
    (failed : (packet.ret = false ∨ packet.dwTransferred = 0) ∧
      (packet.context.mIoType = .ioRecv ∨ packet.context.mIoType = .ioSend)) :
    ∃ token, (token = .ref ∨ token = .baton) ∧ gains packet = {token} := by
  rcases failed with ⟨failed, kind | kind⟩
  · refine ⟨.baton, .inr rfl, ?_⟩
    rw [gains, if_neg (by simp [kind]), kind]
    rfl
  · exact ⟨.ref, .inl rfl, if_pos ⟨kind, failed⟩⟩

/-- A turn of `DoIocpJob` accounts for its tokens. -/
theorem secure_doIocpJob (worker : ∃ index, thread = .worker index)
    (unlocked : ghost.locks = []) :
    Secure thread doIocpJob ghost fun mode next => Ends thread mode next := by
  apply Safe.bind (secure_act goes_getQueuedCompletionStatus)
  rintro (packet : Option Packet) next dequeued
  cases packet with
  | none =>
      cases dequeued
      exact Ends.intro (by simp) unlocked
  | some packet =>
      rcases dequeued with ⟨same_locks, tokens_eq, filled⟩
      have unlocked := same_locks.trans unlocked
      by_cases failed : (packet.ret = false ∨ packet.dwTransferred = 0) ∧
          (packet.context.mIoType = .ioRecv ∨ packet.context.mIoType = .ioSend)
      · simp only [if_pos failed]
        rcases exists_gains failed with ⟨token, reference, gains_eq⟩
        rw [gains_eq] at tokens_eq
        exact secure_closeJob worker unlocked rfl tokens_eq reference
      · simp only [if_neg failed]
        rw [gains_eq failed] at tokens_eq
        apply Safe.bind
        · apply secure_dispatch worker tokens_eq
          intro client owner kind
          apply filled client
          refine ⟨owner, kind, ?_⟩
          by_contra lost
          exact failed ⟨.inl (Bool.eq_false_of_not_eq_true lost), .inl kind⟩
        · rintro completionOk _ ⟨token, left, receive, reference, rfl⟩
          exact secure_closeJob worker unlocked rfl rfl reference

/-- A turn of `DoSendJob` accounts for its tokens. -/
theorem secure_doSendJob (worker : ∃ index, thread = .worker index)
    (unlocked : ghost.locks = []) :
    Secure thread doSendJob ghost fun mode next => Ends thread mode next := by
  apply Safe.bind (secure_aside rfl)
  rintro (front : Option SessionId) _ rfl
  cases front with
  | none => exact Ends.intro (by simp) unlocked
  | some session =>
      apply Safe.bind (secure_flushSend worker)
      rintro (flushed : Bool) next same_locks
      cases flushed
      · exact Ends.intro (by simp) (same_locks.trans unlocked)
      · apply Safe.bind (secure_aside rfl)
        rintro _ _ rfl
        exact Ends.intro (by simp) (same_locks.trans unlocked)

/-- The main thread issues a session with the place it takes from the free list. -/
theorem secure_acceptClientSession (locked : ghost.locks = [.mLock]) :
    Secure .main acceptClientSession ghost fun mode next => Ends .main mode next := by
  apply Safe.bind (secure_aside rfl)
  rintro (below : Bool) _ rfl
  cases below
  · apply Safe.bind (secure_act (goes_leaveLock locked (by rintro _ ⟨⟩)))
    rintro _ _ rfl
    exact Ends.intro (by simp) rfl
  · apply Safe.bind (secure_act goes_popFreeSession)
    rintro (newClient : ClientId) _ rfl
    apply Safe.bind (secure_aside rfl)
    rintro _ _ rfl
    apply Safe.bind (secure_startRef rfl)
    rintro _ _ rfl
    apply Safe.bind (secure_postAccept rfl)
    rintro posted next same_locks
    cases posted
    · apply Safe.bind (secure_act (goes_leaveLock (same_locks.trans locked) (by rintro _ ⟨⟩)))
      rintro _ _ rfl
      exact Ends.intro (by simp) rfl
    · exact same_locks.trans locked

/-- Every turn of a thread accounts for its tokens. -/
theorem secure_body (mode : Mode) (ends : Ends thread mode ghost) :
    Secure thread (body thread mode) ghost fun mode next => Ends thread mode next := by
  cases thread with
  | worker index =>
      have unlocked := ends.unlocked (by simp)
      cases mode with
      | sendJob => exact secure_doSendJob ⟨index, rfl⟩ unlocked
      | _ => exact secure_doIocpJob ⟨index, rfl⟩ unlocked
  | connecting index =>
      have unlocked := ends.unlocked (by simp)
      apply Safe.bind (secure_connectRequest index)
      rintro _ next same_locks
      exact Ends.intro (by simp) (same_locks.trans unlocked)
  | main =>
      cases mode with
      | accept =>
          apply Safe.bind (secure_act (goes_enterLock _))
          rintro _ _ ⟨rfl, _⟩
          exact congrArg _ (ends.unlocked (by simp))
      | accepting => exact secure_acceptClientSession ends
      | _ => exact ends

end Secure

end Gsp.Homework5.Locking.Owners
