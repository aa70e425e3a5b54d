import Gsp.DummyClients.Contexts

/-!
# What each function does to the owners

From the rules of the operations to the functions of a session, the jobs of a worker
and the two loops of the main thread. A function that gives up a context keeps the
reference of the completed one it is called for, so the last reference is released at
the end of a completion.
-/

namespace Gsp.DummyClients

open DummyClient MyPacket Tokens Program Session SessionManager DummyClientSession WorkerThread

section Secure

variable {workers connections : ℕ} {spares : Prop}
  {packets : ClientId connections → List Packet}
  {thread : Thread workers} {ghost after : Ghost connections} {client : ClientId connections}
  {kept : Multiset (ClientId connections × Token)} {Value : Type}
  {context : OverlappedIOContext connections}

variable (spares packets) in
/-- The code keeps to the discipline. -/
abbrev Secure (thread : Thread workers) {Value : Type} (task : Task connections Value)
    (ghost : Ghost connections) (post : Value → Ghost connections → Prop) : Prop :=
  (program workers packets).Safe (discipline workers spares packets) thread task ghost post

theorem secure_act {operation : Operation connections}
    {post : operation.Result → Ghost connections → Prop}
    (goes : Goes spares packets thread operation ghost post) :
    Secure spares packets thread (act operation) ghost post :=
  goes

/-- Only a socket option may fail its assertion. -/
theorem secure_assertSockOpt (unlocked : ghost.locks = []) (option : SockOpt) :
    Secure spares packets thread (assertSockOpt option) ghost fun _ next => next = ghost := by
  apply Safe.bind (secure_act (goes_setSockOpt option))
  rintro (done : Bool) ghost rfl
  cases done
  · apply Steps.mono (goes_crash unlocked)
    · exact fun result _ _ => result.elim
    · exact fun _ _ => True
  · exact rfl

/-- An assertion that holds is passed. -/
theorem secure_asserted {assertion : Assertion} {condition : Bool} (holds : condition = true) :
    Secure spares packets thread (crashAssert assertion condition) ghost fun _ next =>
      next = ghost := by
  rw [crashAssert, if_pos holds]
  exact rfl

theorem secure_guarded {lock : Lock connections} {block : Task connections Value}
    {post : Value → Ghost connections → Prop}
    (above : ∀ held ∈ ghost.locks, held.rank < lock.rank)
    (inside : (∀ client, lock = .mSendBufferLock client → ghost.share client .uncounted = 0) →
      Secure spares packets thread block { ghost with locks := lock :: ghost.locks }
        fun value next => next.locks = lock :: ghost.locks ∧
          (∀ client, lock = .mSendBufferLock client → next.share client .uncounted = 0) ∧
          post value { next with locks := ghost.locks }) :
    Secure spares packets thread (guarded lock block) ghost post := by
  apply Safe.bind (secure_act (goes_enterLock above))
  rintro _ _ ⟨rfl, counted⟩
  apply Safe.bind (inside counted)
  rintro value next ⟨held, counted, holds⟩
  apply Safe.bind (secure_act (goes_leaveLock held counted))
  rintro _ _ rfl
  exact holds

/-- Around a block that uses the send buffer. -/
theorem secure_sendGuarded {block : Task connections Value}
    {post : Value → Ghost connections → Prop} (unlocked : ghost.locks = [])
    (inside : ghost.share client .uncounted = 0 →
      Secure spares packets thread block
        { ghost with locks := .mSendBufferLock client :: ghost.locks }
        fun value next => next.locks = .mSendBufferLock client :: ghost.locks ∧
          next.share client .uncounted = 0 ∧ post value { next with locks := ghost.locks }) :
    Secure spares packets thread (guarded (.mSendBufferLock client) block) ghost post := by
  apply secure_guarded
  · simp [unlocked]
  · intro counted
    apply Safe.mono (inside (counted client rfl))
    rintro value next ⟨held, none, holds⟩
    refine ⟨held, ?_, holds⟩
    intro other same
    cases same
    exact none

/-- Under another lock sends are counted as before. -/
theorem secure_plainGuarded {lock : Lock connections} {block : Task connections Value}
    {post : Value → Ghost connections → Prop}
    (above : ∀ held ∈ ghost.locks, held.rank < lock.rank)
    (plain : ∀ client, lock ≠ .mSendBufferLock client)
    (inside : Secure spares packets thread block { ghost with locks := lock :: ghost.locks }
      fun value next => next.locks = lock :: ghost.locks ∧
        post value { next with locks := ghost.locks }) :
    Secure spares packets thread (guarded lock block) ghost post := by
  apply secure_guarded above
  intro _
  apply Safe.mono inside
  rintro value next ⟨held, holds⟩
  refine ⟨held, ?_, holds⟩
  intro client same
  exact absurd same (plain client)

theorem Ghost.count_eq_zero {tokens : Multiset Token} {token : Token}
    (tokens_eq : ghost.tokens = own client tokens + kept) (none : ghost.share client token = 0) :
    kept.count (client, token) = 0 := by
  rw [Ghost.share_own tokens_eq] at none
  exact Nat.eq_zero_of_add_eq_zero_left none

/-- No lock of a pool is held. -/
def Low (ghost : Ghost connections) : Prop :=
  ∀ held ∈ ghost.locks, held.rank < 2

theorem secure_classLock (low : Low ghost) (mIoType : IOType) :
    Secure spares packets thread (guarded (.classLock mIoType) (pure ())) ghost fun _ next =>
      next = ghost := by
  apply secure_plainGuarded
  · exact low
  · simp
  · apply safe_pure
    exact ⟨rfl, rfl⟩

/-! ## References and contexts -/

/-- A referenced session can be referenced once more. -/
theorem secure_addRef
    (referenced : 0 < ghost.share client .ref + ghost.share client .start +
      ghost.share client .hold) :
    Secure spares packets thread (addRef client) ghost fun _ next =>
      next = { ghost with tokens := own client {.ref} + ghost.tokens } := by
  apply Safe.bind (secure_act (goes_addRef referenced))
  rintro (count : ℤ) _ ⟨positive, rfl⟩
  exact secure_asserted (decide_eq_true positive)

/-- The main thread gives a session its first reference. -/
theorem secure_startRef (main : thread = none)
    (tokens_eq : ghost.tokens = own client {.fresh} + kept) :
    Secure spares packets thread (addRef client) ghost fun _ next =>
      next = { ghost with tokens := own client {.start} + kept } := by
  apply Safe.bind (secure_act (goes_startRef main tokens_eq))
  rintro (count : ℤ) _ ⟨positive, rfl⟩
  exact secure_asserted (decide_eq_true positive)

/-- A send takes a reference under the lock of its buffer. -/
theorem secure_flushRef (tokens_eq : ghost.tokens = own client {.flush} + kept)
    (worker : thread ≠ none) (locked : Lock.mSendBufferLock client ∈ ghost.locks) :
    Secure spares packets thread (addRef client) ghost fun _ next =>
      next = { ghost with tokens := own client {.sending, .ref} + kept } := by
  apply Safe.bind (secure_act (goes_flushRef tokens_eq worker locked))
  rintro (count : ℤ) _ ⟨positive, rfl⟩
  exact secure_asserted (decide_eq_true positive)

/-- A released reference takes its token. -/
theorem secure_releaseRef {token : Token} (tokens_eq : ghost.tokens = own client {token} + kept)
    (reference : token = .ref ∨ token = .hold) :
    Secure spares packets thread (releaseRef client) ghost fun _ next =>
      next = { ghost with tokens := kept } := by
  apply Safe.bind (secure_act (goes_releaseRef tokens_eq reference))
  rintro (count : ℤ) _ ⟨nonneg, rfl⟩
  apply Safe.bind (secure_asserted (decide_eq_true nonneg))
  rintro _ _ rfl
  by_cases last : count = 0
  · rw [if_pos last, if_pos last]
    exact secure_act (goes_onRelease rfl)
  · rw [if_neg last, if_neg last]
    exact congrArg (fun tokens => { ghost with tokens := tokens }) (eq_own_zero kept).symm

theorem secure_newContext (low : Low ghost) (mIoType : IOType)
    (adds : Secure spares packets thread (addRef client) ghost fun _ next => next = after) :
    Secure spares packets thread (newContext client mIoType) ghost fun context next =>
      context = ⟨client, mIoType, ⟨0, none⟩⟩ ∧ next = after := by
  apply Safe.bind (secure_classLock low mIoType)
  rintro _ _ rfl
  apply Safe.bind adds
  rintro _ _ rfl
  exact ⟨rfl, rfl⟩

variable (kept) in
/-- A deleted context gives its token back. -/
theorem secure_deleteIoContext (low : Low ghost) (owner : context.mSessionObject = client)
    (known : context.mIoType ≠ .ioNone) (tokens_eq : ghost.tokens = own client {.ref} + kept) :
    Secure spares packets thread (deleteIoContext context) ghost fun _ next =>
      next = { ghost with tokens := kept } := by
  rw [deleteIoContext, owner]
  apply Safe.bind (secure_releaseRef tokens_eq (Or.inl rfl))
  rintro _ _ rfl
  rw [if_neg known]
  apply secure_classLock
  exact low

variable (kept) in
/-- Posted or given up, the context takes along what it needs. -/
theorem secure_post (low : Low ghost) (owner : context.mSessionObject = client)
    (tokens_eq : ghost.tokens = own client context.mIoType.needs + kept)
    (known : context.mIoType ≠ .ioNone)
    (zero : context.mIoType = .ioRecvZero → ∃ receive,
      ghost.receive = some (client, receive) ∧ Quiet (packets client) receive)
    (full : context.mIoType = .ioRecv → ∃ receive,
      ghost.receive = some (client, receive) ∧ Posted (packets client) receive context.mWsaBuf)
    (sends : context.mIoType = .ioSend → ∃ buffer,
      ghost.send = some (client, buffer) ∧ Sends buffer context.mWsaBuf)
    (locked : context.mIoType = .ioSend → Lock.mSendBufferLock client ∈ ghost.locks) :
    Secure spares packets thread (post context) ghost fun posted next =>
      next = { ghost.without context.mIoType with
        tokens := own client (if posted then context.mIoType.leaves else 0) + kept } := by
  apply Safe.bind (secure_act (goes_submit owner tokens_eq known zero full sends locked))
  rintro (posted : Bool) _ rfl
  cases posted
  · have outside : Low { ghost.without context.mIoType with
        tokens := own client {.ref} + kept } := by
      intro held heldMem
      rw [Ghost.without_locks] at heldMem
      exact low held heldMem
    apply Safe.bind (secure_deleteIoContext kept outside owner known rfl)
    rintro _ _ rfl
    exact congrArg (fun tokens => { ghost.without context.mIoType with tokens := tokens })
      (eq_own_zero kept)
  · exact rfl

/-- Who works on the receive buffer sees the session disconnected from now on. -/
theorem secure_disconnectRequest (low : Low ghost) :
    Secure spares packets thread (disconnectRequest client) ghost fun _ next =>
      ∃ closed, (0 < ghost.share client .baton → closed = some client) ∧
        next = { ghost with closed := closed } := by
  apply Safe.bind (secure_act goes_disconnect)
  rintro (connected : Bool) _ ⟨closed, seen, rfl⟩
  cases connected
  · refine ⟨closed, seen, ?_⟩
    exact congrArg (fun tokens => { ghost with tokens := tokens, closed := closed })
      (eq_own_zero ghost.tokens).symm
  · apply Safe.bind
    · apply secure_newContext
      · exact low
      · apply secure_addRef
        simp [Ghost.share, count_own, amount]
    · rintro _ _ ⟨rfl, rfl⟩
      apply Safe.bind
      · apply secure_post ghost.tokens
        · exact low
        · rfl
        · simp only [IOType.needs, IOType.brings, own_pair, if_true, add_assoc]
        all_goals simp
      · rintro _ _ rfl
        refine ⟨closed, seen, ?_⟩
        simp [Ghost.without, IOType.leaves, ← eq_own_zero]

/-! ## Receiving -/

/-- Whoever has had the baton may have given it away. -/
def Keeps (client : ClientId connections) (kept : Multiset (ClientId connections × Token))
    (ghost next : Ghost connections) : Prop :=
  ∃ left receive closed, next = { ghost with
    tokens := own client left + kept, receive := receive, closed := closed }

theorem Keeps.intro (left : Multiset Token) {tokens : Multiset (ClientId connections × Token)}
    {receive : Option (ClientId connections × Client)} {closed : Option (ClientId connections)}
    (tokens_eq : tokens = own client left + kept) :
    Keeps client kept ghost
      { ghost with tokens := tokens, receive := receive, closed := closed } := by
  rw [tokens_eq]
  exact ⟨left, receive, closed, rfl⟩

variable (kept) in
theorem secure_preRecv (low : Low ghost) (tokens_eq : ghost.tokens = own client {.baton} + kept)
    (referenced : 0 < kept.count (client, .ref))
    (quiet : ghost.closed = some client ∨
      ∃ receive, ghost.receive = some (client, receive) ∧ Quiet (packets client) receive) :
    Secure spares packets thread (preRecv client) ghost fun _ next =>
      Keeps client kept ghost next := by
  apply Safe.bind (secure_act goes_isConnected)
  rintro (connected : Bool) ghost ⟨rfl, seen⟩
  cases connected
  · exact Keeps.intro _ tokens_eq
  · rcases quiet with closed | ⟨receive, known, quiet⟩
    · cases seen (Or.inl closed)
    · apply Safe.bind
      · apply secure_newContext
        · exact low
        · apply secure_addRef
          simp [Ghost.share, tokens_eq, referenced]
      · rintro _ _ ⟨rfl, rfl⟩
        apply Safe.mono
        · apply secure_post kept
          · exact low
          · rfl
          · simp only [IOType.needs, IOType.brings, own_pair, tokens_eq, add_assoc]
          · simp
          · exact fun _ => ⟨receive, known, quiet⟩
          all_goals simp
        · rintro posted _ rfl
          exact ⟨_, _, _, rfl⟩

theorem secure_postRecv {receive : Client} (low : Low ghost)
    (tokens_eq : ghost.tokens = own client {.baton} + kept)
    (referenced : 0 < kept.count (client, .ref))
    (known : ghost.receive = some (client, receive)) (quiet : Quiet (packets client) receive) :
    Secure spares packets thread (postRecv client) ghost fun _ next =>
      Keeps client kept ghost next := by
  apply Safe.bind (secure_act goes_isConnected)
  rintro (connected : Bool) ghost ⟨rfl, _⟩
  cases connected
  · exact Keeps.intro _ tokens_eq
  · apply Safe.bind (secure_act (goes_recvBuffer known .getFreeSpaceSize))
    rintro (free : ℕ) _ ⟨free_eq, rfl⟩
    by_cases full : free = 0
    · rw [if_pos full]
      exact Keeps.intro _ tokens_eq
    · rw [if_neg full]
      apply Safe.bind
      · apply secure_newContext
        · exact low
        · apply secure_addRef
          simp [Ghost.share, tokens_eq, referenced]
      · rintro _ _ ⟨rfl, rfl⟩
        apply Safe.bind (secure_act (goes_recvBuffer rfl .getFreeSpaceSize))
        rintro (len : ℕ) _ ⟨rfl, rfl⟩
        apply Safe.bind (secure_act (goes_recvBuffer rfl .getBuffer))
        rintro (buf : ℕ) _ ⟨rfl, rfl⟩
        apply Safe.mono
        · apply secure_post kept
          · exact low
          · rfl
          · simp only [IOType.needs, IOType.brings, own_pair, tokens_eq, add_assoc]
          · simp
          · simp
          · intro _
            refine ⟨_, rfl, receive, _, _, _, quiet.1, ?_, rfl, rfl⟩
            rw [DummyClientSession.postRecv, if_neg (by simp [quiet.2])]
            exact if_neg (free_eq ▸ full)
          all_goals simp
        · rintro posted _ rfl
          exact ⟨_, _, _, rfl⟩

/-- Received bytes fit the window of the receive. -/
theorem secure_recvCompletion {receive : Client} {transferred : ℕ} (low : Low ghost)
    (baton : 0 < ghost.share client .baton) (known : ghost.receive = some (client, receive))
    (arrived : Arrived (packets client) receive transferred) :
    Secure spares packets thread (Session.recvCompletion client transferred) ghost fun _ next =>
      ∃ receive closed, next = { ghost with
        receive := some (client, receive), closed := closed } ∧
        (closed = some client ∨ Quiet (packets client) receive) := by
  apply Safe.bind (secure_act (goes_recvCompletion known arrived))
  rintro (asked : Bool) _ ⟨after, reachable, asked_eq, rfl⟩
  cases asked
  · refine ⟨after, ghost.closed, rfl, Or.inr ⟨reachable, ?_⟩⟩
    simpa using asked_eq.symm
  · apply Safe.mono
    · apply secure_disconnectRequest
      exact low
    · rintro _ _ ⟨closed, seen, rfl⟩
      exact ⟨after, closed, rfl, Or.inl (seen baton)⟩

/-! ## Sending -/

theorem secure_readSendBuffer {buffer : CircularBuffer} (call : BufferCall)
    (known : ghost.send = some (client, buffer)) (same : (buffer.onCall call).2 = buffer) :
    Secure spares packets thread (sendBuffer client call) ghost fun result next =>
      result = (buffer.onCall call).1 ∧ next = ghost :=
  secure_act (goes_readSendBuffer known same)

variable (kept) in
/-- `FlushSend` sends what the buffer holds, once. -/
theorem secure_flushSend {buffer : CircularBuffer} (worker : thread ≠ none)
    (unlocked : ghost.locks = [])
    (tokens_eq : ghost.tokens = own client {.flush} + kept)
    (known : ghost.send = some (client, buffer)) (loaded : Loaded buffer) :
    Secure spares packets thread (flushSend client) ghost fun flushed next =>
      flushed = true ∧ next.locks = [] ∧ next.front = ghost.front := by
  have low : Low ghost := by simp [Low, unlocked]
  apply Safe.bind (secure_act goes_isConnected)
  rintro (connected : Bool) ghost ⟨rfl, _⟩
  cases connected
  · apply Safe.bind (secure_disconnectRequest low)
    rintro _ _ ⟨closed, _, rfl⟩
    exact ⟨rfl, unlocked, rfl⟩
  · apply secure_sendGuarded
    · exact unlocked
    · intro counted
      have locked : Low { ghost with locks := .mSendBufferLock client :: ghost.locks } := by
        simp [Low, unlocked, Lock.rank]
      refine Safe.bind (secure_readSendBuffer .getContiguiousBytes (by exact known) rfl) ?_
      rintro (contiguious : ℕ) _ ⟨contiguious_eq, rfl⟩
      refine Safe.bind (secure_act (goes_loadSendPendingCount (by exact tokens_eq))) ?_
      rintro (mSendPendingCount : ℤ) _ ⟨unsent, rfl⟩
      have some : contiguious ≠ 0 := contiguious_eq.trans_ne loaded.contiguious_ne_zero
      rw [if_neg some, if_neg unsent.le.not_gt]
      apply Safe.bind
      · apply secure_newContext
        · exact locked
        · apply secure_flushRef
          · exact tokens_eq
          · exact worker
          · exact List.mem_cons_self
      · rintro _ _ ⟨rfl, rfl⟩
        refine Safe.bind (secure_readSendBuffer .getContiguiousBytes (by exact known) rfl) ?_
        rintro (len : ℕ) _ ⟨rfl, rfl⟩
        refine Safe.bind (secure_readSendBuffer .getBufferStart (by exact known) rfl) ?_
        rintro (buf : Option ℕ) _ ⟨rfl, rfl⟩
        apply Safe.bind
        · apply secure_post kept
          · exact locked
          · rfl
          · rfl
          · simp
          · simp
          · simp
          · exact fun _ => ⟨buffer, known, loaded.sends⟩
          · simp
        · rintro posted _ rfl
          cases posted
          · apply Safe.bind
            · apply secure_disconnectRequest
              exact locked
            · rintro _ _ ⟨closed, _, rfl⟩
              refine ⟨rfl, ?_, rfl, unlocked, rfl⟩
              simpa [Ghost.share, ← eq_own_zero] using Ghost.count_eq_zero tokens_eq counted
          · apply Safe.bind (secure_act (goes_countSend rfl))
            rintro (count : ℤ) _ ⟨rfl, rfl⟩
            exact ⟨rfl, Ghost.count_eq_zero tokens_eq counted, rfl, unlocked, rfl⟩

/-- Sent bytes leave the front of the buffer. -/
theorem secure_sendCompletion {transferred : ℕ} (unlocked : ghost.locks = [])
    (tokens_eq : ghost.tokens = own client {.sent} + kept) (unknown : ghost.send = none) :
    Secure spares packets thread (sendCompletion client transferred) ghost fun _ next =>
      next = { ghost with tokens := kept } := by
  apply secure_sendGuarded
  · exact unlocked
  · intro counted
    refine Safe.bind (secure_act (goes_remove (by exact tokens_eq) (by exact unknown) _)) ?_
    rintro _ _ rfl
    refine Safe.bind (secure_act (goes_countSent (by exact tokens_eq) ?_ ?_)) ?_
    · exact List.mem_cons_self
    · exact counted
    · rintro _ _ rfl
      exact ⟨rfl, Ghost.count_eq_zero tokens_eq counted, rfl⟩

/-! ## Connecting -/

theorem secure_connectRequest (low : Low ghost)
    (tokens_eq : ghost.tokens = own client {.start} + kept) :
    Secure spares packets thread (connectRequest client) ghost fun requested next =>
      requested = true ∧ next = { ghost with tokens := kept } := by
  have start : 0 < ghost.share client .start := by
    simp [Ghost.share_own tokens_eq, amount]
  apply Safe.bind (secure_act goes_isConnected)
  rintro (connected : Bool) ghost ⟨rfl, seen⟩
  cases seen (Or.inr start)
  apply Safe.bind
  · apply secure_newContext
    · exact low
    · apply secure_addRef
      omega
  · rintro _ _ ⟨rfl, rfl⟩
    apply Safe.bind
    · apply secure_post kept
      · exact low
      · rfl
      · simp only [IOType.needs, IOType.brings, own_pair, tokens_eq, add_assoc]
      all_goals simp
    · rintro posted _ rfl
      refine ⟨rfl, ?_⟩
      simp [Ghost.without, IOType.leaves, ← eq_own_zero]

theorem secure_sendRequest (unlocked : ghost.locks = [])
    (tokens_eq : ghost.tokens = own client {.login} + kept) (unknown : ghost.send = none)
    (id : Int32) :
    Secure spares packets thread (sendRequest client id) ghost fun _ next =>
      ∃ left, next = { ghost with tokens := own client left + kept } := by
  apply Safe.bind (secure_act goes_isConnected)
  rintro (connected : Bool) ghost ⟨rfl, _⟩
  cases connected
  · refine ⟨{.login}, ?_⟩
    exact congrArg (fun tokens => { ghost with tokens := tokens }) tokens_eq
  · apply secure_sendGuarded
    · exact unlocked
    · intro counted
      refine Safe.bind (secure_act (goes_writeRequest (by exact tokens_eq) (by exact unknown) _)) ?_
      rintro (written : Bool) _ ⟨rfl, rfl⟩
      apply Safe.bind (secure_act (goes_pushRequest rfl))
      rintro _ _ rfl
      refine ⟨rfl, ?_, {.queued}, rfl⟩
      simpa [Ghost.share, count_own, amount] using Ghost.count_eq_zero tokens_eq counted

variable (kept) in
theorem secure_login (unlocked : ghost.locks = [])
    (tokens_eq : ghost.tokens = own client {.login} + kept) (unknown : ghost.send = none) :
    Secure spares packets thread (login client) ghost fun _ next =>
      ∃ left, next = { ghost with tokens := own client left + kept } := by
  apply Safe.bind (secure_act goes_loadId)
  rintro id ghost rfl
  apply Safe.bind (secure_act (goes_storeId _))
  rintro _ ghost rfl
  apply Safe.bind (secure_sendRequest unlocked tokens_eq unknown id)
  rintro _ _ ⟨left, rfl⟩
  exact ⟨left, rfl⟩

/-- A connected session hands its tokens on. -/
theorem secure_connectCompletion (unlocked : ghost.locks = [])
    (tokens_eq : ghost.tokens = own client {.start} + kept)
    (referenced : 0 < kept.count (client, .ref)) (unknown : ghost.send = none) :
    Secure spares packets thread (connectCompletion client) ghost fun _ next =>
      Keeps client kept ghost next := by
  apply Safe.bind (secure_act (goes_setSockOpt _))
  rintro (updated : Bool) ghost rfl
  cases updated
  · exact Keeps.intro _ tokens_eq
  · apply Safe.bind (secure_assertSockOpt unlocked _)
    rintro _ ghost rfl
    apply Safe.bind (secure_assertSockOpt unlocked _)
    rintro _ ghost rfl
    apply Safe.bind (secure_act (goes_connect tokens_eq))
    rintro (connected : Bool) _ ⟨rfl, receive, quiet, rfl⟩
    apply Safe.bind (secure_asserted rfl)
    rintro _ _ rfl
    apply Safe.bind
    · apply secure_preRecv (own client {.login} + kept)
      · simp [Low, unlocked]
      · rw [own_pair, add_comm (own client _), add_assoc]
      · simpa [count_own, amount] using referenced
      · exact Or.inr ⟨receive, rfl, quiet⟩
    · rintro posted _ ⟨left, receive, closed, rfl⟩
      cases posted
      · apply Safe.bind (secure_act goes_disconnect)
        rintro (connected : Bool) _ ⟨closed, _, rfl⟩
        apply Keeps.intro ((if connected then {.hold} else 0) + left + {.login})
        simp only [own_add, add_assoc]
      · apply Safe.bind (secure_act goes_increaseClientSession)
        rintro _ _ rfl
        apply Safe.mono
        · apply secure_login (own client left + kept)
          · exact unlocked
          · exact add_left_comm _ _ _
          · exact unknown
        · rintro _ _ ⟨more, rfl⟩
          apply Keeps.intro (more + left)
          simp only [own_add, add_assoc]

/-! ## The jobs of a worker -/

theorem IOType.brings_eq {mIoType : IOType} (known : mIoType ≠ .ioNone) :
    ∃ more, mIoType.brings = {.ref} + more := by
  cases mIoType
  · exact absurd rfl known
  · exact ⟨{.sent}, Multiset.pair_comm _ _⟩
  · exact ⟨{.baton}, Multiset.pair_comm _ _⟩
  · exact ⟨{.baton}, Multiset.pair_comm _ _⟩
  · exact ⟨{.hold}, Multiset.pair_comm _ _⟩
  · exact ⟨{.start}, Multiset.pair_comm _ _⟩

/-- The reference of the completed context is kept. -/
theorem secure_dispatch {receive : Client} {ret : Bool} {dwTransferred : ℕ}
    (unlocked : ghost.locks = [])
    (taken : Taken (packets context.mSessionObject) context ret dwTransferred receive)
    (succeeded : ¬(Failed ret dwTransferred ∧
      (context.mIoType = .ioRecv ∨ context.mIoType = .ioSend)))
    (tokens_eq : ghost.tokens = own context.mSessionObject context.mIoType.brings + kept)
    (known : ghost.receive =
      if context.mIoType.receives then some (context.mSessionObject, receive) else none)
    (unknown : ghost.send = none) :
    Secure spares packets thread (dispatch context dwTransferred) ghost fun _ next =>
      Keeps context.mSessionObject (own context.mSessionObject {Token.ref} + kept) ghost next := by
  have low : Low ghost := by simp [Low, unlocked]
  have referenced : 0 < (own context.mSessionObject {Token.ref} + kept).count
      (context.mSessionObject, Token.ref) := by
    simp [count_own, amount]
  rw [dispatch]
  rw [Taken] at taken
  have tokens_eq {first : Token} (brings : context.mIoType.brings = {first, .ref}) :
      ghost.tokens = own context.mSessionObject {first} +
        (own context.mSessionObject {Token.ref} + kept) := by
    rw [tokens_eq, brings, own_pair, add_comm (own _ {Token.ref}), add_assoc]
  cases kind : context.mIoType with
  | ioNone =>
      rw [kind] at taken
      exact taken.elim
  | ioSend =>
      rw [kind] at tokens_eq
      apply Safe.bind (secure_sendCompletion unlocked (tokens_eq rfl) unknown)
      rintro _ _ rfl
      exact Keeps.intro 0 (eq_own_zero _)
  | ioRecv =>
      simp only [kind, IOType.receives, if_true] at taken tokens_eq known succeeded
      have arrived := taken.resolve_left fun failed => succeeded ⟨failed, Or.inl trivial⟩
      apply Safe.bind
      · apply secure_recvCompletion low _ known arrived
        rw [Ghost.share_own (tokens_eq rfl)]
        simp [amount]
      · rintro _ _ ⟨receive, closed, rfl, after⟩
        apply Safe.mono
        · apply secure_preRecv (own context.mSessionObject {.ref} + kept)
          · exact low
          · exact tokens_eq rfl
          · exact referenced
          · exact after.imp_right fun quiet => ⟨receive, rfl, quiet⟩
        · rintro _ _ ⟨left, receive, closed, rfl⟩
          exact Keeps.intro _ rfl
  | ioRecvZero =>
      simp only [kind, IOType.receives, if_true] at taken tokens_eq known
      exact secure_postRecv low (tokens_eq rfl) referenced known taken
  | ioDisconnect =>
      rw [kind] at tokens_eq
      apply Safe.bind (secure_releaseRef (tokens_eq rfl) (Or.inr rfl))
      rintro _ _ rfl
      exact Keeps.intro 0 (eq_own_zero _)
  | ioConnect =>
      rw [kind] at tokens_eq
      apply Safe.bind (secure_connectCompletion unlocked (tokens_eq rfl) referenced unknown)
      rintro _ _ keeps
      exact keeps

/-- Nothing is left of a completion. -/
def Done (ghost : Ghost connections) : Prop :=
  ghost.locks = [] ∧ ghost.front = none

/-- A completion is handled with the tokens it brought. -/
theorem secure_handleCompletion {receive : Client} {ret : Bool} {dwTransferred : ℕ}
    (done : Done ghost)
    (taken : Taken (packets context.mSessionObject) context ret dwTransferred receive)
    (succeeded : ¬(Failed ret dwTransferred ∧
      (context.mIoType = .ioRecv ∨ context.mIoType = .ioSend)))
    (tokens_eq : ghost.tokens = own context.mSessionObject context.mIoType.brings + kept)
    (known : ghost.receive =
      if context.mIoType.receives then some (context.mSessionObject, receive) else none)
    (unknown : ghost.send = none) :
    Secure spares packets thread (handleCompletion context dwTransferred) ghost fun _ next =>
      Done next := by
  have named : context.mIoType ≠ .ioNone := by
    intro kind
    rw [Taken, kind] at taken
    exact taken
  have low : Low ghost := by simp [Low, done.1]
  apply Safe.bind (secure_dispatch done.1 taken succeeded tokens_eq known unknown)
  rintro completionOk _ ⟨left, receive, closed, rfl⟩
  cases completionOk
  · apply Safe.bind
    · apply secure_disconnectRequest
      exact low
    · rintro _ _ ⟨closed, _, rfl⟩
      apply Safe.bind
      · apply secure_deleteIoContext (own context.mSessionObject left + kept)
        · exact low
        · rfl
        · exact named
        · exact add_left_comm _ _ _
      · rintro _ _ rfl
        exact done
  · apply Safe.bind
    · apply secure_deleteIoContext (own context.mSessionObject left + kept)
      · exact low
      · rfl
      · exact named
      · exact add_left_comm _ _ _
    · rintro _ _ rfl
      exact done

/-- A failed completion closes its session. -/
theorem secure_failCompletion (done : Done ghost) (known : context.mIoType ≠ .ioNone)
    (tokens_eq : ghost.tokens = own context.mSessionObject context.mIoType.brings + kept) :
    Secure spares packets thread (failCompletion context) ghost fun _ next => Done next := by
  have low : Low ghost := by simp [Low, done.1]
  rcases IOType.brings_eq known with ⟨more, brings⟩
  apply Safe.bind (secure_disconnectRequest low)
  rintro _ _ ⟨closed, _, rfl⟩
  apply Safe.bind
  · apply secure_deleteIoContext (own context.mSessionObject more + kept)
    · exact low
    · rfl
    · exact known
    · rw [tokens_eq, brings, own_add, add_assoc]
  · rintro _ _ rfl
    exact done

/-- A turn of `DoIocpJob` accounts for its tokens. -/
theorem secure_doIocpJob (done : Done ghost) :
    Secure spares packets thread doIocpJob ghost fun _ next => Done next := by
  apply Safe.bind (secure_act goes_getQueuedCompletionStatus)
  rintro (status : Status connections) next dequeued
  cases status with
  | waitTimeout =>
      cases dequeued
      exact done
  | stopNow =>
      cases dequeued
      exact done
  | packet context ret dwTransferred =>
      rcases dequeued with ⟨receive, taken, rfl⟩
      by_cases failed : Failed ret dwTransferred ∧
          (context.mIoType = .ioRecv ∨ context.mIoType = .ioSend)
      · simp only [if_pos failed]
        apply secure_failCompletion
        · exact done
        · intro kind
          simp [kind] at failed
        · rfl
      · simp only [if_neg failed]
        apply secure_handleCompletion
        · exact done
        · exact taken
        · exact failed
        · rfl
        · rfl
        · rfl

/-- A turn of `DoSendJob` accounts for its tokens. -/
theorem secure_doSendJob (worker : thread ≠ none) (done : Done ghost) :
    Secure spares packets thread doSendJob ghost fun _ next => Done next := by
  apply Safe.bind (secure_act (goes_frontRequest done.2))
  rintro (front : Option (ClientId connections)) next fronted
  cases front with
  | none =>
      cases fronted
      exact done
  | some session =>
      rcases fronted with ⟨kept, buffer, _, loaded, rfl⟩
      apply Safe.bind
      · apply secure_flushSend kept
        · exact worker
        · exact done.1
        · rfl
        · rfl
        · exact loaded
      · rintro _ next ⟨rfl, unlocked, front⟩
        apply Safe.bind (secure_act (goes_popRequest front))
        rintro _ _ rfl
        exact ⟨unlocked, rfl⟩

/-! ## The main thread -/

/-- Connecting the sessions spends the tokens of each. -/
theorem secure_connectAll (sessions : List (ClientId connections)) (main : thread = none)
    (low : Low ghost)
    (tokens_eq : ghost.tokens = (sessions.map fun client => own client {.fresh}).sum) :
    Secure spares packets thread (connectAll sessions) ghost fun _ next =>
      ∃ tokens, next = { ghost with tokens := tokens } := by
  induction sessions generalizing ghost with
  | nil => exact ⟨ghost.tokens, rfl⟩
  | cons session sessions ih =>
      rw [List.map_cons, List.sum_cons] at tokens_eq
      apply Safe.bind (secure_startRef main tokens_eq)
      rintro _ _ rfl
      apply Safe.bind
      · apply secure_connectRequest
        · exact low
        · rfl
      · rintro _ _ ⟨rfl, rfl⟩
        apply ih
        · exact low
        · rfl

theorem secure_disconnectAll (sessions : List (ClientId connections)) (low : Low ghost) :
    Secure spares packets thread (disconnectAll sessions) ghost fun _ next =>
      ∃ closed, next = { ghost with closed := closed } := by
  induction sessions generalizing ghost with
  | nil => exact ⟨ghost.closed, rfl⟩
  | cons session sessions ih =>
      apply Safe.bind (secure_act goes_isConnected)
      rintro (connected : Bool) ghost ⟨rfl, _⟩
      cases connected
      · exact ih low
      · apply Safe.bind (secure_disconnectRequest low)
        rintro _ _ ⟨closed, _, rfl⟩
        apply ih
        exact low

/-- Between its jobs a thread has no lock and sends nothing, and it starts to connect with
the rights to do so. -/
def Mode.Ends (thread : Thread workers) (mode : Mode) (ghost : Ghost connections) : Prop :=
  Done ghost ∧ (thread = none → mode = .connectSessions →
    ghost.tokens = ((List.finRange connections).map fun client => own client {.fresh}).sum)

theorem secure_connectSessions (main : thread = none) (done : Done ghost)
    (tokens_eq : ghost.tokens =
      ((List.finRange connections).map fun client => own client {.fresh}).sum) :
    Secure spares packets thread connectSessions ghost fun _ next => Done next := by
  apply secure_plainGuarded
  · simp [done.1]
  · simp
  · apply Safe.mono
    · apply secure_connectAll
      · exact main
      · simp [Low, done.1, Lock.rank]
      · exact tokens_eq
    · rintro _ _ ⟨tokens, rfl⟩
      exact ⟨rfl, done⟩

theorem secure_disconnectSessions (done : Done ghost) :
    Secure spares packets thread disconnectSessions ghost fun _ next => Done next := by
  apply secure_plainGuarded
  · simp [done.1]
  · simp
  · apply Safe.mono
    · apply secure_disconnectAll
      simp [Low, done.1, Lock.rank]
    · rintro _ _ ⟨closed, rfl⟩
      exact ⟨rfl, done⟩

/-- Every turn of a thread accounts for its tokens. -/
theorem secure_body (mode : Mode) (ends : mode.Ends thread ghost) :
    Secure spares packets thread (body thread mode) ghost fun mode next =>
      mode.Ends thread next := by
  rcases ends with ⟨done, fresh⟩
  cases thread with
  | none =>
      cases mode with
      | connectSessions =>
          apply Safe.bind (secure_connectSessions rfl done (fresh rfl rfl))
          intro connected next done
          refine ⟨done, ?_⟩
          cases connected <;> simp
      | disconnectSessions =>
          apply Safe.bind (secure_disconnectSessions done)
          intro _ next done
          refine ⟨done, ?_⟩
          simp
      | _ => exact ⟨done, fresh⟩
  | some worker =>
      cases mode with
      | iocpJob =>
          apply Safe.mono (secure_doIocpJob done)
          intro mode next done
          exact ⟨done, nofun⟩
      | sendJob =>
          apply Safe.mono (secure_doSendJob (Option.some_ne_none worker) done)
          intro mode next done
          exact ⟨done, nofun⟩
      | _ => exact ⟨done, fresh⟩

end Secure

end Gsp.DummyClients
