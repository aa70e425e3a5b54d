import Gsp.DummyClients.Ownership

/-!
# What each operation does to the owners

One rule for every operation: from the tokens that the operation needs, what the thread
holds afterwards. `Fine` collects what the process asks of an operation in any state:
locks are taken in order, the last reference is given up when nothing of a connection
is left, a request is sent once and as it has been written, and no assertion fails
except those about socket options, without a lock.
-/

namespace Gsp.DummyClients

open DummyClient MyPacket Tokens

section Fine

variable {workers connections : ℕ}

/-- Locks are taken with increasing rank. -/
def Lock.rank : Lock connections → ℕ
  | .mLock => 0
  | .mSendBufferLock _ => 1
  | .classLock _ => 2

/-- What an operation asks of the process. -/
def Process.Fine (thread : Thread workers) (operation : Operation connections)
    (process : Process workers connections) : Prop :=
  match operation with
  | .enterLock lock => ∀ held, process.owner held = some thread → held.rank < lock.rank
  | .incrementRefCount client =>
      thread = none ∨ 0 < (process.session client).mRefCount ∨
        process.owner (.mSendBufferLock client) = some thread
  | .decrementRefCount client =>
      0 < (process.session client).mRefCount ∧
        ((process.session client).mRefCount = 1 →
          (process.session client).inFlight = [] ∧ (process.session client).mConnected = false)
  | .onRelease client => (process.session client).released ≤ 1
  | .submit context => context.mIoType = .ioSend →
      Sends (process.session context.mSessionObject).mSendBuffer context.mWsaBuf
  | .recvCompletion client transferred =>
      ((process.session client).receive.recvCompletion transferred).isSome
  | .loadSendPendingCount client => (process.session client).mSendPendingCount = 0
  | .addSendPendingCount client change =>
      (process.session client).mSendPendingCount + change = 0 ∨
        (process.session client).mSendPendingCount + change = 1
  | .writeRequest client id => ((process.session client).writeLogin id).isSome
  | .popRequest => process.requests thread ≠ []
  | .crash assertion => assertion = .sockOpt ∧ ∀ lock, process.owner lock ≠ some thread
  | _ => True

/-- A worker adds a reference to a session that has one. -/
def Process.Spares (thread : Thread workers) (operation : Operation connections)
    (process : Process workers connections) : Prop :=
  match operation with
  | .incrementRefCount client => thread ≠ none → 0 < (process.session client).mRefCount
  | _ => True

/-- With `spares`, only operations that spare the sessions are considered. -/
def discipline (workers : ℕ) (spares : Prop) (packets : ClientId connections → List Packet) :
    Program.Discipline (Thread workers) (Process workers connections) (Operation connections)
      (Ghost connections) where
  Inv := Guarded spares packets
  Allowed thread operation process := spares → process.Spares thread operation
  Fine := Process.Fine

end Fine

/-! ## Tokens of one session -/

section Own

variable {connections : ℕ} {client other : ClientId connections}
  {ghost : Ghost connections} {tokens : Multiset Token}
  {kept : Multiset (ClientId connections × Token)}

theorem Ghost.share_own (tokens_eq : ghost.tokens = own client tokens + kept) (token : Token) :
    ghost.share client token = amount tokens token + kept.count (client, token) := by
  rw [Ghost.share, tokens_eq, Multiset.count_add, count_own]

theorem Ghost.share_of_ne (tokens_eq : ghost.tokens = own client tokens + kept)
    (ne : other ≠ client) (token : Token) :
    ghost.share other token = kept.count (other, token) := by
  rw [Ghost.share, tokens_eq, Multiset.count_add, count_own_of_ne tokens token ne, Nat.zero_add]

end Own

section Rules

variable {workers connections : ℕ} {spares : Prop}
  {packets : ClientId connections → List Packet}
  {process after : Process workers connections} {ghosts : Thread workers → Ghost connections}
  {thread : Thread workers} {ghost next : Ghost connections} {client : ClientId connections}
  {spent gained : Multiset Token} {kept : Multiset (ClientId connections × Token)}

/-- The requests that wait stay in the list. -/
theorem Knows.waiting (before : Knows process thread ghost)
    (tokens_eq : ghost.tokens = own client spent + kept)
    (next_tokens : next.tokens = own client gained + kept) (same_front : next.front = ghost.front)
    (same_requests : after.requests thread = process.requests thread)
    (queued : amount spent .queued ≤ amount gained .queued) :
    ∃ waiting, after.requests thread = next.front.toList ++ waiting ∧
      ∀ client, waiting.count client ≤ next.share client .queued := by
  rcases before.requests with ⟨waiting, requests_eq, enough⟩
  refine ⟨waiting, by rw [same_requests, same_front, requests_eq], ?_⟩
  intro other
  have enough := enough other
  by_cases same : other = client
  · subst same
    rw [Ghost.share_own tokens_eq] at enough
    rw [Ghost.share_own next_tokens]
    omega
  · rw [Ghost.share_of_ne tokens_eq same] at enough
    rw [Ghost.share_of_ne next_tokens same]
    exact enough

/-- What a thread believes to hold, when it works on a session. -/
theorem Knows.onSession (before : Knows process thread ghost)
    (tokens_eq : ghost.tokens = own client spent + kept)
    (next_tokens : next.tokens = own client gained + kept) (same_locks : next.locks = ghost.locks)
    (requests : ∃ waiting, after.requests thread = next.front.toList ++ waiting ∧
      ∀ client, waiting.count client ≤ next.share client .queued)
    (receive : ∀ other receive, next.receive = some (other, receive) →
      0 < next.share other .baton ∧ (after.session other).receive = receive)
    (send : ∀ other buffer, next.send = some (other, buffer) →
      0 < next.share other .flush + next.share other .sending ∧
        (after.session other).mSendBuffer = buffer)
    (closed : ∀ other, next.closed = some other →
      0 < next.share other .baton ∧ (after.session other).mConnected = false)
    (counting : 0 < amount gained .uncounted → Lock.mSendBufferLock client ∈ ghost.locks) :
    Knows after thread next where
  distinct := by
    rw [same_locks]
    exact before.distinct
  requests := requests
  receive := receive
  send := send
  closed := closed
  counting other positive := by
    rw [same_locks]
    by_cases same : other = client
    · subst same
      rw [Ghost.share_own next_tokens] at positive
      by_cases mine : 0 < amount gained .uncounted
      · exact counting mine
      · apply before.counting other
        rw [Ghost.share_own tokens_eq]
        omega
    · rw [Ghost.share_of_ne next_tokens same] at positive
      apply before.counting other
      rw [Ghost.share_of_ne tokens_eq same]
      exact positive

/-- What a thread knows stays known, or is given up. -/
theorem Knows.renew (before : Knows process thread ghost)
    (tokens_eq : ghost.tokens = own client spent + kept)
    (next_tokens : next.tokens = own client gained + kept) (same_locks : next.locks = ghost.locks)
    {session : Session connections}
    (session_eq : after.session = Function.update process.session client session)
    (requests : ∃ waiting, after.requests thread = next.front.toList ++ waiting ∧
      ∀ client, waiting.count client ≤ next.share client .queued)
    (receive : next.receive = none ∨ next.receive = ghost.receive ∧
      amount spent .baton ≤ amount gained .baton ∧
        session.receive = (process.session client).receive)
    (send : next.send = none ∨ next.send = ghost.send ∧
      amount spent .flush + amount spent .sending ≤
        amount gained .flush + amount gained .sending ∧
        session.mSendBuffer = (process.session client).mSendBuffer)
    (closed : next.closed = none ∨ next.closed = ghost.closed ∧
      amount spent .baton ≤ amount gained .baton ∧
        (session.mConnected = true → (process.session client).mConnected = true))
    (counting : 0 < amount gained .uncounted → Lock.mSendBufferLock client ∈ ghost.locks) :
    Knows after thread next := by
  have here : after.session client = session := by
    rw [session_eq, Function.update_self]
  have elsewhere {other : ClientId connections} (ne : other ≠ client) :
      after.session other = process.session other := by
    rw [session_eq, Function.update_of_ne ne]
  apply before.onSession tokens_eq next_tokens same_locks requests
  · intro other known_receive known
    rcases receive with none | ⟨same_known, baton, same_receive⟩
    · rw [none] at known
      cases known
    · rcases before.receive other known_receive (same_known ▸ known) with ⟨held, receive_eq⟩
      by_cases same : other = client
      · subst same
        rw [Ghost.share_own tokens_eq] at held
        rw [Ghost.share_own next_tokens, here, same_receive]
        exact ⟨by omega, receive_eq⟩
      · rw [Ghost.share_of_ne tokens_eq same] at held
        rw [Ghost.share_of_ne next_tokens same, elsewhere same]
        exact ⟨held, receive_eq⟩
  · intro other buffer known
    rcases send with none | ⟨same_known, requested, same_send⟩
    · rw [none] at known
      cases known
    · rcases before.send other buffer (same_known ▸ known) with ⟨held, buffer_eq⟩
      by_cases same : other = client
      · subst same
        simp only [Ghost.share_own tokens_eq] at held
        simp only [Ghost.share_own next_tokens, here, same_send]
        exact ⟨by omega, buffer_eq⟩
      · simp only [Ghost.share_of_ne tokens_eq same] at held
        simp only [Ghost.share_of_ne next_tokens same, elsewhere same]
        exact ⟨held, buffer_eq⟩
  · intro other known
    rcases closed with none | ⟨same_known, baton, stays⟩
    · rw [none] at known
      cases known
    · rcases before.closed other (same_known ▸ known) with ⟨held, disconnected⟩
      by_cases same : other = client
      · subst same
        rw [Ghost.share_own tokens_eq] at held
        rw [Ghost.share_own next_tokens, here]
        refine ⟨by omega, Bool.eq_false_of_not_eq_true ?_⟩
        intro connected
        rw [stays connected] at disconnected
        cases disconnected
      · rw [Ghost.share_of_ne tokens_eq same] at held
        rw [Ghost.share_of_ne next_tokens same, elsewhere same]
        exact ⟨held, disconnected⟩
  · exact counting

/-- The list of requests stays as it is. -/
theorem Knows.keep (before : Knows process thread ghost)
    (tokens_eq : ghost.tokens = own client spent + kept)
    (next_tokens : next.tokens = own client gained + kept) (same_locks : next.locks = ghost.locks)
    (same_front : next.front = ghost.front) {session : Session connections}
    (session_eq : after.session = Function.update process.session client session)
    (same_requests : after.requests thread = process.requests thread)
    (queued : amount spent .queued ≤ amount gained .queued)
    (receive : next.receive = none ∨ next.receive = ghost.receive ∧
      amount spent .baton ≤ amount gained .baton ∧
        session.receive = (process.session client).receive)
    (send : next.send = none ∨ next.send = ghost.send ∧
      amount spent .flush + amount spent .sending ≤
        amount gained .flush + amount gained .sending ∧
        session.mSendBuffer = (process.session client).mSendBuffer)
    (closed : next.closed = none ∨ next.closed = ghost.closed ∧
      amount spent .baton ≤ amount gained .baton ∧
        (session.mConnected = true → (process.session client).mConnected = true))
    (counting : 0 < amount gained .uncounted → Lock.mSendBufferLock client ∈ ghost.locks) :
    Knows after thread next :=
  before.renew tokens_eq next_tokens same_locks session_eq
    (before.waiting tokens_eq next_tokens same_front same_requests queued) receive send closed
    counting

/-- A thread works on a session and its contexts in flight. -/
theorem Guarded.onContexts (guarded : Guarded spares packets process ghosts)
    (tokens_eq : (ghosts thread).tokens = own client spent + kept)
    (next_tokens : next.tokens = own client gained + kept)
    (same_locks : next.locks = (ghosts thread).locks) {session : Session connections}
    (session_eq : after.session = Function.update process.session client session)
    (same_owner : after.owner = process.owner)
    (same_requests : ∀ other ≠ thread, after.requests other = process.requests other)
    (law : ∀ others,
      Law spares (packets client) client (process.session client)
        (others + amount spent + (process.session client).carried) →
      Law spares (packets client) client session (others + amount gained + session.carried))
    (knows : Knows after thread next)
    (receives : session.receive = (process.session client).receive ∨
      0 < mayReceive (amount spent + (process.session client).carried))
    (sends : session.mSendBuffer = (process.session client).mSendBuffer ∨
      0 < amount spent .login + amount spent .sent)
    (connects : session.mConnected = true →
      (process.session client).mConnected = true ∨ 0 < amount spent .start) :
    Guarded spares packets after (Function.update ghosts thread next) := by
  have here : after.session client = session := by
    rw [session_eq, Function.update_self]
  have elsewhere {other : ClientId connections} (ne : other ≠ client) :
      after.session other = process.session other := by
    rw [session_eq, Function.update_of_ne ne]
  apply guarded.change
  · intro lock other
    rw [same_owner, guarded.owners]
    by_cases same : other = thread
    · rw [same, Function.update_self, same_locks]
    · rw [Function.update_of_ne same]
  · intro other others before
    by_cases same : other = client
    · subst same
      have split {ghost : Ghost connections} {tokens : Multiset Token}
          (tokens_eq : ghost.tokens = own other tokens + kept) :
          others + ghost.share other =
            (others + fun token => kept.count (other, token)) + amount tokens := by
        funext token
        simp only [Pi.add_apply, Ghost.share_own tokens_eq]
        omega
      rw [split tokens_eq] at before
      rw [split next_tokens, here]
      exact law _ before
    · have unchanged : next.share other = (ghosts thread).share other := by
        funext token
        rw [Ghost.share_of_ne tokens_eq same, Ghost.share_of_ne next_tokens same]
      rw [unchanged, elsewhere same]
      exact before
  · exact knows
  · exact same_requests
  · intro other
    by_cases same : other = client
    · subst same
      rw [here]
      apply receives.imp_right
      simp only [mayReceive, Pi.add_apply, Ghost.share_own tokens_eq]
      omega
    · rw [elsewhere same]
      exact Or.inl rfl
  · intro other
    by_cases same : other = client
    · subst same
      rw [here]
      apply sends.imp_right
      simp only [Ghost.share_own tokens_eq]
      omega
    · rw [elsewhere same]
      exact Or.inl rfl
  · intro other
    by_cases same : other = client
    · subst same
      rw [here, Ghost.share_own tokens_eq]
      intro connected
      apply (connects connected).imp_right
      omega
    · rw [elsewhere same]
      exact Or.inl

/-- A thread works on a session, whose contexts in flight stay as they are. -/
theorem Guarded.onSession (guarded : Guarded spares packets process ghosts)
    (tokens_eq : (ghosts thread).tokens = own client spent + kept)
    (next_tokens : next.tokens = own client gained + kept)
    (same_locks : next.locks = (ghosts thread).locks) {session : Session connections}
    (session_eq : after.session = Function.update process.session client session)
    (same_owner : after.owner = process.owner)
    (same_requests : ∀ other ≠ thread, after.requests other = process.requests other)
    (same_flight : session.inFlight = (process.session client).inFlight)
    (law : ∀ others,
      Law spares (packets client) client (process.session client) (others + amount spent) →
      Law spares (packets client) client session (others + amount gained))
    (knows : Knows after thread next)
    (receives : session.receive = (process.session client).receive ∨
      0 < mayReceive (amount spent))
    (sends : session.mSendBuffer = (process.session client).mSendBuffer ∨
      0 < amount spent .login + amount spent .sent)
    (connects : session.mConnected = true →
      (process.session client).mConnected = true ∨ 0 < amount spent .start) :
    Guarded spares packets after (Function.update ghosts thread next) := by
  refine guarded.onContexts tokens_eq next_tokens same_locks session_eq same_owner same_requests ?_
    knows (receives.imp_right ?_) sends connects
  · intro others before
    have carried : session.carried = (process.session client).carried := by
      rw [Session.carried, same_flight, Session.carried]
    rw [add_right_comm] at before
    rw [add_right_comm, carried]
    exact law _ before
  · simp only [mayReceive, Pi.add_apply]
    omega

end Rules

/-! ## Locks -/

section Locks

variable {workers connections : ℕ} {spares : Prop}
  {packets : ClientId connections → List Packet}
  {thread : Thread workers} {ghost : Ghost connections} {lock : Lock connections}

variable (spares packets) in
/-- What an operation of a thread does to what it holds. -/
abbrev Goes (thread : Thread workers) (operation : Operation connections)
    (ghost : Ghost connections) (post : operation.Result → Ghost connections → Prop) : Prop :=
  (program workers packets).Steps (discipline workers spares packets) thread operation ghost post

theorem Guarded.keep {process : Process workers connections}
    {ghosts : Thread workers → Ghost connections}
    (guarded : Guarded spares packets process ghosts) :
    Guarded spares packets process (Function.update ghosts thread (ghosts thread)) := by
  rw [Function.update_eq_self]
  exact guarded

/-- A lock is entered below those that are held. -/
theorem goes_enterLock (above : ∀ held ∈ ghost.locks, held.rank < lock.rank) :
    Goes spares packets thread (.enterLock lock) ghost fun _ next =>
      next = { ghost with locks := lock :: ghost.locks } ∧
        ∀ client, lock = .mSendBufferLock client → ghost.share client .uncounted = 0 := by
  rintro process ghosts guarded rfl
  have new : lock ∉ (ghosts thread).locks := by
    intro held
    exact absurd (above lock held) (lt_irrefl _)
  constructor
  · intro held owner
    exact above held ((guarded.owners held thread).mp owner)
  · intro input result after _ performed
    simp only [program, Process.perform] at performed
    split at performed
    · next free =>
        cases performed
        have nobody (other : Thread workers) : lock ∉ (ghosts other).locks := by
          rw [← guarded.owners, free]
          simp
        have knows := guarded.knows thread
        refine ⟨_, ?_, rfl, ?_⟩
        · apply guarded.change
          · intro held other
            simp only [Process.setOwner]
            by_cases same : held = lock
            · subst same
              rw [Function.update_self]
              by_cases mine : other = thread
              · subst mine
                simp
              · rw [Function.update_of_ne mine]
                simp [Ne.symm mine, nobody other]
            · rw [Function.update_of_ne same, guarded.owners]
              by_cases mine : other = thread
              · subst mine
                simp [same]
              · rw [Function.update_of_ne mine]
          · exact fun client others law => law
          · refine ⟨List.nodup_cons.mpr ⟨new, knows.distinct⟩, knows.requests, knows.receive,
              knows.send, knows.closed, ?_⟩
            intro client positive
            exact List.mem_cons_of_mem _ (knows.counting client positive)
          · exact fun _ _ => rfl
          · exact fun _ => Or.inl rfl
          · exact fun _ => Or.inl rfl
          · exact fun _ => Or.inl
        · rintro client rfl
          by_contra counting
          exact new (knows.counting client (Nat.pos_of_ne_zero counting))
    · cases performed

theorem goes_leaveLock {rest : List (Lock connections)} (locks_eq : ghost.locks = lock :: rest)
    (counted : ∀ client, lock = .mSendBufferLock client → ghost.share client .uncounted = 0) :
    Goes spares packets thread (.leaveLock lock) ghost fun _ next =>
      next = { ghost with locks := rest } := by
  rintro process ghosts guarded rfl
  refine ⟨trivial, ?_⟩
  intro input result after _ performed
  cases performed
  have knows := guarded.knows thread
  have distinct := knows.distinct
  rw [locks_eq, List.nodup_cons] at distinct
  have mine : process.owner lock = some thread := by
    rw [guarded.owners, locks_eq]
    exact List.mem_cons_self
  refine ⟨_, ?_, rfl⟩
  apply guarded.change
  · intro held other
    simp only [Process.setOwner]
    by_cases same : held = lock
    · subst same
      rw [Function.update_self]
      by_cases own : other = thread
      · subst own
        simp [distinct.1]
      · rw [Function.update_of_ne own, ← guarded.owners, mine]
        simp [Ne.symm own]
    · rw [Function.update_of_ne same, guarded.owners]
      by_cases own : other = thread
      · subst own
        simp [locks_eq, same]
      · rw [Function.update_of_ne own]
  · exact fun client others law => law
  · refine ⟨distinct.2, knows.requests, knows.receive, knows.send, knows.closed, ?_⟩
    intro client positive
    have held := knows.counting client positive
    rw [locks_eq, List.mem_cons] at held
    rcases held with left | held
    · have none := counted client left.symm
      exact absurd none (Nat.ne_of_gt positive)
    · exact held
  · exact fun _ _ => rfl
  · exact fun _ => Or.inl rfl
  · exact fun _ => Or.inl rfl
  · exact fun _ => Or.inl

end Locks

/-! ## The law when a session is connected, referenced and released -/

section Laws

variable {connections : ℕ} {spares : Prop} {packets : List Packet}
  {client : ClientId connections}
  {session : Session connections} {others : Amount} {token : Token}

/-- Closing a session keeps the law. -/
theorem Law.disconnect (law : Law spares packets client session (others + amount 0)) :
    Law spares packets client { session with mConnected := false }
      (others + amount (if session.mConnected then {.hold} else 0)) := by
  rcases law.toNumbers with ⟨counted, connecting, receiving, requesting, pending, nonneg, unused,
    releases, once⟩
  cases connected : session.mConnected <;>
    refine law.recount ?_ rfl rfl ?_ ?_ ?_ law.ready
  · constructor <;> simp_all
  · simp
  · simp
  · simp
  · constructor <;> simp_all
  · simp
  · simp
  · simp

/-- A session is connected once. -/
theorem Law.connect (law : Law spares packets client session (others + amount {.start})) :
    session.mConnected = false ∧ Quiet packets session.receive ∧
      Law spares packets client { session with mConnected := true }
        (others + amount {.baton, .login}) := by
  have quiet : Quiet packets session.receive := by
    apply law.quiet
    simp
  have connecting := law.connecting
  have unconnected : session.mConnected = false := by
    apply Bool.eq_false_of_not_eq_true
    intro connected
    simp [connected] at connecting
  rcases law.toNumbers with ⟨counted, connecting, receiving, requesting, pending, nonneg, unused,
    releases, once⟩
  refine ⟨unconnected, quiet, law.recount ?_ rfl rfl ?_ ?_ ?_ law.ready⟩
  · constructor <;> simp_all <;> omega
  · simp
    omega
  · simp
  · simp

/-- A further reference keeps the law. -/
theorem Law.addRef (law : Law spares packets client session (others + amount 0))
    (referenced : 0 < session.mRefCount) :
    Law spares packets client { session with mRefCount := session.mRefCount + 1 }
      (others + amount {.ref}) := by
  rcases law.toNumbers with ⟨counted, connecting, receiving, requesting, pending, nonneg, unused,
    releases, once⟩
  refine law.recount ?_ rfl rfl ?_ ?_ ?_ law.ready
  · have later : 0 < session.mRefCount + 1 := by omega
    constructor <;> simp_all <;> omega
  · simp
  · simp
  · simp

/-- The first reference. -/
theorem Law.startRef (law : Law spares packets client session (others + amount {.fresh})) :
    session.mRefCount = 0 ∧
      Law spares packets client { session with mRefCount := session.mRefCount + 1 }
        (others + amount {.start}) := by
  have zero : session.mRefCount = 0 := by
    apply law.unused
    simp
  rcases law.toNumbers with ⟨counted, connecting, receiving, requesting, pending, nonneg, unused,
    releases, once⟩
  refine ⟨zero, law.recount ?_ rfl rfl ?_ ?_ ?_ law.ready⟩
  · constructor <;> simp_all <;> omega
  · simp
    omega
  · simp
  · simp
    omega

/-- A request gets a reference, which may be the only one. -/
theorem Law.flushRef (law : Law spares packets client session (others + amount {.flush}))
    (spared : spares → 0 < session.mRefCount) :
    0 < session.mRefCount + 1 ∧
      Law spares packets client { session with mRefCount := session.mRefCount + 1 }
        (others + amount {.sending, .ref}) := by
  rcases law.toNumbers with ⟨counted, connecting, receiving, requesting, pending, nonneg, unused,
    releases, once⟩
  have later : 0 < session.mRefCount + 1 := by omega
  refine ⟨later, law.recount ?_ rfl rfl ?_ ?_ ?_ law.ready⟩
  · constructor
    case once =>
      intro strict
      have once := once strict
      rw [if_pos (spared strict)] at once
      simp_all
    all_goals simp_all <;> split at releases <;> omega
  · simp
  · simp
    omega
  · simp

/-- A released reference keeps the law. -/
theorem Law.releaseRef (law : Law spares packets client session (others + amount {token}))
    (reference : token = .ref ∨ token = .hold) :
    0 < session.mRefCount ∧
      (session.mRefCount = 1 → others .ref = 0 ∧ session.mConnected = false) ∧
      Law spares packets client { session with mRefCount := session.mRefCount - 1 }
        (others + amount (if session.mRefCount - 1 = 0 then {.releasing} else 0)) := by
  rcases law.toNumbers with ⟨counted, connecting, receiving, requesting, pending, nonneg, unused,
    releases, once⟩
  have referenced : 1 + others .ref + session.mConnected.toNat ≤ session.mRefCount := by
    rcases reference with rfl | rfl <;> simp at counted <;> omega
  refine ⟨by omega, ?_, law.recount ?_ rfl rfl ?_ ?_ ?_ law.ready⟩
  · intro last
    refine ⟨by omega, Bool.eq_false_of_not_eq_true ?_⟩
    intro connected
    rw [connected, Bool.toNat_true] at referenced
    omega
  · by_cases last : session.mRefCount - 1 = 0
    · have one : session.mRefCount = 1 := by omega
      rcases reference with rfl | rfl <;> constructor <;> simp_all <;> omega
    · have more : 0 < session.mRefCount - 1 := by omega
      have now : 0 < session.mRefCount := by omega
      rcases reference with rfl | rfl <;> constructor <;> simp_all <;> omega
  · rcases reference with rfl | rfl <;> split <;> simp
  · rcases reference with rfl | rfl <;> split <;> simp
  · rcases reference with rfl | rfl <;> split <;> simp

/-- The last reference is released once. -/
theorem Law.onRelease (law : Law spares packets client session (others + amount {.releasing})) :
    session.released ≤ 1 ∧
      Law spares packets client { session with released := session.released + 1 }
        (others + amount 0) := by
  rcases law.toNumbers with ⟨counted, connecting, receiving, requesting, pending, nonneg, unused,
    releases, once⟩
  refine ⟨?_, law.recount ?_ rfl rfl ?_ ?_ ?_ law.ready⟩
  · simp at releases
    omega
  · constructor
    case once =>
      intro strict
      have once := once strict
      simp at once ⊢
      omega
    all_goals simp_all
    omega
  · simp
  · simp
  · simp

end Laws

/-! ## Connections and references -/

section References

variable {workers connections : ℕ} {spares : Prop}
  {packets : ClientId connections → List Packet}
  {thread : Thread workers} {ghost : Ghost connections} {client : ClientId connections}
  {kept : Multiset (ClientId connections × Token)} {token : Token}

theorem Guarded.law_spent {process : Process workers connections}
    {ghosts : Thread workers → Ghost connections} {spent : Multiset Token}
    (guarded : Guarded spares packets process ghosts)
    (tokens_eq : (ghosts thread).tokens = own client spent + kept) :
    ∃ others, (∀ token, (process.session client).carried token ≤ others token) ∧
      Law spares (packets client) client (process.session client) (others + amount spent) := by
  have law := guarded.law client
  rw [Shares.total_eq _ thread] at law
  refine ⟨Shares.others (Ghost.share client) thread ghosts +
    (process.session client).carried + fun token => kept.count (client, token), ?_, ?_⟩
  · intro token
    simp only [Pi.add_apply]
    omega
  convert law using 1
  funext token
  simp only [Pi.add_apply, Ghost.share_own tokens_eq]
  omega

/-- A session that was closed stays closed. -/
theorem goes_isConnected :
    Goes spares packets thread (.isConnected client) ghost fun (connected : Bool) next =>
      next = ghost ∧ (ghost.closed = some client ∨ 0 < ghost.share client .start →
        connected = false) := by
  rintro process ghosts guarded rfl
  refine ⟨trivial, ?_⟩
  intro input result after _ performed
  cases performed
  refine ⟨_, guarded.keep, rfl, ?_⟩
  rintro (known | start)
  · exact ((guarded.knows thread).closed client known).2
  · have connecting := (guarded.law client).connecting
    rw [Shares.total_eq _ thread] at connecting
    simp only [Pi.add_apply] at connecting
    apply Bool.eq_false_of_not_eq_true
    intro connected
    rw [connected, Bool.toNat_true] at connecting
    omega

/-- Whoever disconnects a session takes over its reference. -/
theorem goes_disconnect :
    Goes spares packets thread (.exchangeConnected client false) ghost
      fun (connected : Bool) next =>
      ∃ closed, (0 < ghost.share client .baton → closed = some client) ∧ next = { ghost with
        tokens := own client (if connected then {.hold} else 0) + ghost.tokens
        closed := closed } := by
  rintro process ghosts guarded rfl
  refine ⟨trivial, ?_⟩
  intro input result after _ performed
  cases performed
  have knows := guarded.knows thread
  refine ⟨_, ?_, if 0 < (ghosts thread).share client .baton then some client else none,
    fun baton => if_pos baton, rfl⟩
  refine guarded.onSession (eq_own_zero _) rfl rfl rfl rfl (fun _ _ => rfl) rfl
    (fun _ => Law.disconnect) ?_ (.inl rfl) (.inl rfl) (by simp)
  have kept : Knows (process.setSession client { process.session client with mConnected := false })
      thread { ghosts thread with
        tokens := own client (if (process.session client).mConnected then {.hold} else 0) +
          (ghosts thread).tokens
        closed := none } := by
    refine knows.keep (eq_own_zero _) rfl rfl rfl rfl rfl ?_ ?_ ?_ (.inl rfl) ?_
    · simp
    · simp
    · simp
    · split <;> simp
  refine ⟨kept.distinct, kept.requests, kept.receive, kept.send, ?_, kept.counting⟩
  intro other known
  rw [Option.ite_none_right_eq_some, Option.some.injEq] at known
  rcases known with ⟨baton, rfl⟩
  constructor
  · rw [Ghost.share_own rfl]
    exact Nat.lt_add_left _ baton
  · simp [Process.setSession]

/-- The right to connect becomes what belongs to a connection. -/
theorem goes_connect (tokens_eq : ghost.tokens = own client {.start} + kept) :
    Goes spares packets thread (.exchangeConnected client true) ghost fun (connected : Bool) next =>
      connected = false ∧ ∃ receive, Quiet (packets client) receive ∧ next = { ghost with
        tokens := own client {.baton, .login} + kept
        receive := some (client, receive)
        closed := none } := by
  rintro process ghosts guarded rfl
  refine ⟨trivial, ?_⟩
  intro input result after _ performed
  cases performed
  rcases guarded.law_spent tokens_eq with ⟨others, carried, law⟩
  rcases law.connect with ⟨unconnected, quiet, _⟩
  refine ⟨_, ?_, unconnected, _, quiet, rfl⟩
  refine guarded.onSession tokens_eq rfl rfl rfl rfl (fun _ _ => rfl) rfl
    (fun _ law => law.connect.2.2) ?_ (.inl rfl) (.inl rfl) (by simp)
  have kept_known : Knows (process.setSession client
      { process.session client with mConnected := true }) thread { ghosts thread with
        tokens := own client {.baton, .login} + kept
        receive := none
        closed := none } := by
    refine (guarded.knows thread).keep tokens_eq rfl rfl rfl rfl rfl ?_ (.inl rfl) ?_ (.inl rfl) ?_
    · simp
    · simp
    · simp
  refine ⟨kept_known.distinct, kept_known.requests, ?_, kept_known.send, kept_known.closed,
    kept_known.counting⟩
  rintro other receive ⟨⟩
  constructor
  · rw [Ghost.share_own rfl]
    simp
  · simp [Process.setSession]

/-- A reference for a context, while the session is still referenced. -/
theorem goes_addRef
    (referenced : 0 < ghost.share client .ref + ghost.share client .start +
      ghost.share client .hold) :
    Goes spares packets thread (.incrementRefCount client) ghost fun (count : ℤ) next =>
      0 < count ∧ next = { ghost with tokens := own client {.ref} + ghost.tokens } := by
  rintro process ghosts guarded rfl
  have some : 0 < (process.session client).mRefCount := by
    have counted := (guarded.law client).counted
    simp only [Shares.total_eq _ thread, Pi.add_apply] at counted
    omega
  refine ⟨Or.inr (Or.inl some), ?_⟩
  intro input result after _ performed
  cases performed
  refine ⟨_, ?_, by omega, rfl⟩
  refine guarded.onSession (eq_own_zero _) rfl rfl rfl rfl (fun _ _ => rfl) rfl
    (fun _ law => law.addRef some) ?_ (.inl rfl) (.inl rfl) .inl
  refine (guarded.knows thread).keep (eq_own_zero _) rfl rfl rfl rfl rfl ?_ ?_ ?_ ?_ ?_ <;>
    simp

/-- The reference of a session that is going to be connected. -/
theorem goes_startRef (main : thread = none)
    (tokens_eq : ghost.tokens = own client {.fresh} + kept) :
    Goes spares packets thread (.incrementRefCount client) ghost fun (count : ℤ) next =>
      0 < count ∧ next = { ghost with tokens := own client {.start} + kept } := by
  rintro process ghosts guarded rfl
  refine ⟨Or.inl main, ?_⟩
  intro input result after _ performed
  cases performed
  rcases guarded.law_spent tokens_eq with ⟨others, carried, law⟩
  have zero := law.startRef.1
  refine ⟨_, ?_, by omega, rfl⟩
  refine guarded.onSession tokens_eq rfl rfl rfl rfl (fun _ _ => rfl) rfl
    (fun _ law => law.startRef.2) ?_ (.inl rfl) (.inl rfl) .inl
  refine (guarded.knows thread).keep tokens_eq rfl rfl rfl rfl rfl ?_ ?_ ?_ ?_ ?_ <;> simp

/-- The reference for a send, which is the only one if the session has been released. -/
theorem goes_flushRef (tokens_eq : ghost.tokens = own client {.flush} + kept)
    (worker : thread ≠ none) (locked : Lock.mSendBufferLock client ∈ ghost.locks) :
    Goes spares packets thread (.incrementRefCount client) ghost fun (count : ℤ) next =>
      0 < count ∧ next = { ghost with tokens := own client {.sending, .ref} + kept } := by
  rintro process ghosts guarded rfl
  refine ⟨Or.inr (Or.inr ((guarded.owners _ thread).mpr locked)), ?_⟩
  intro input result after allowed performed
  cases performed
  have spared : spares → 0 < (process.session client).mRefCount :=
    fun strict => allowed strict worker
  rcases guarded.law_spent tokens_eq with ⟨others, carried, law⟩
  refine ⟨_, ?_, (law.flushRef spared).1, rfl⟩
  refine guarded.onSession tokens_eq rfl rfl rfl rfl (fun _ _ => rfl) rfl
    (fun _ law => (law.flushRef spared).2) ?_ (.inl rfl) (.inl rfl) .inl
  refine (guarded.knows thread).keep tokens_eq rfl rfl rfl rfl rfl ?_ ?_ ?_ ?_ ?_ <;> simp

/-- Who gives up the last reference releases the session. -/
theorem goes_releaseRef (tokens_eq : ghost.tokens = own client {token} + kept)
    (reference : token = .ref ∨ token = .hold) :
    Goes spares packets thread (.decrementRefCount client) ghost fun (count : ℤ) next =>
      0 ≤ count ∧ next = { ghost with
        tokens := own client (if count = 0 then {.releasing} else 0) + kept } := by
  rintro process ghosts guarded rfl
  rcases guarded.law_spent tokens_eq with ⟨others, carried, law⟩
  rcases law.releaseRef reference with ⟨positive, last, _⟩
  refine ⟨⟨positive, ?_⟩, ?_⟩
  · intro one
    rcases last one with ⟨unreferenced, disconnected⟩
    refine ⟨law.inFlight_eq_nil ?_, disconnected⟩
    have few := carried .ref
    omega
  intro input result after _ performed
  cases performed
  refine ⟨_, ?_, by omega, rfl⟩
  refine guarded.onSession tokens_eq rfl rfl rfl rfl (fun _ _ => rfl) rfl
    (fun _ law => (law.releaseRef reference).2.2) ?_ (.inl rfl) (.inl rfl) .inl
  refine (guarded.knows thread).keep tokens_eq rfl rfl rfl rfl rfl ?_ ?_ ?_ ?_ ?_ <;>
    rcases reference with rfl | rfl <;> split <;> simp

theorem goes_onRelease (tokens_eq : ghost.tokens = own client {.releasing} + kept) :
    Goes spares packets thread (.onRelease client) ghost fun _ next =>
      next = { ghost with tokens := kept } := by
  rintro process ghosts guarded rfl
  rcases guarded.law_spent tokens_eq with ⟨others, carried, law⟩
  refine ⟨law.onRelease.1, ?_⟩
  intro input result after _ performed
  cases performed
  refine ⟨_, ?_, rfl⟩
  refine guarded.onSession tokens_eq (eq_own_zero _) rfl rfl rfl (fun _ _ => rfl) rfl
    (fun _ law => law.onRelease.2) ?_ (.inl rfl) (.inl rfl) .inl
  refine (guarded.knows thread).keep tokens_eq (eq_own_zero _) rfl rfl rfl rfl
    ?_ ?_ ?_ ?_ ?_ <;> simp

/-- The counters of the process are nobody's. -/
theorem Guarded.recount {process after : Process workers connections}
    {ghosts : Thread workers → Ghost connections} (guarded : Guarded spares packets process ghosts)
    (same_session : after.session = process.session)
    (same_requests : after.requests = process.requests) (same_owner : after.owner = process.owner) :
    Guarded spares packets after (Function.update ghosts thread (ghosts thread)) := by
  have knows := guarded.knows thread
  apply guarded.change
  · intro lock other
    rw [same_owner, Function.update_eq_self]
    exact guarded.owners lock other
  · intro client others law
    rw [same_session]
    exact law
  · refine ⟨knows.distinct, ?_, ?_, ?_, ?_, knows.counting⟩
    · rw [same_requests]
      exact knows.requests
    · rw [same_session]
      exact knows.receive
    · rw [same_session]
      exact knows.send
    · rw [same_session]
      exact knows.closed
  · exact fun other _ => congrFun same_requests other
  · exact fun client => Or.inl (by rw [same_session])
  · exact fun client => Or.inl (by rw [same_session])
  · intro client connected
    rw [same_session] at connected
    exact Or.inl connected

theorem goes_increaseClientSession :
    Goes spares packets thread .increaseClientSession ghost fun _ next => next = ghost := by
  rintro process ghosts guarded rfl
  refine ⟨trivial, ?_⟩
  intro input result after _ performed
  cases performed
  exact ⟨_, guarded.recount rfl rfl rfl, rfl⟩

theorem goes_loadId : Goes spares packets thread .loadId ghost fun _ next => next = ghost := by
  rintro process ghosts guarded rfl
  refine ⟨trivial, ?_⟩
  intro input result after _ performed
  cases performed
  exact ⟨_, guarded.keep, rfl⟩

theorem goes_storeId (id : Int32) :
    Goes spares packets thread (.storeId id) ghost fun _ next => next = ghost := by
  rintro process ghosts guarded rfl
  refine ⟨trivial, ?_⟩
  intro input result after _ performed
  cases performed
  exact ⟨_, guarded.recount rfl rfl rfl, rfl⟩

theorem goes_setSockOpt (option : SockOpt) :
    Goes spares packets thread (.setSockOpt option) ghost fun _ next => next = ghost := by
  rintro process ghosts guarded rfl
  refine ⟨trivial, ?_⟩
  intro input result after _ performed
  cases performed
  exact ⟨_, guarded.keep, rfl⟩

theorem goes_crash (unlocked : ghost.locks = []) {post : Empty → Ghost connections → Prop} :
    Goes spares packets thread (.crash .sockOpt) ghost post := by
  rintro process ghosts guarded rfl
  refine ⟨⟨rfl, ?_⟩, ?_⟩
  · intro lock owner
    have held := (guarded.owners lock thread).mp owner
    rw [unlocked] at held
    cases held
  · intro input result
    exact result.elim

end References

end Gsp.DummyClients
