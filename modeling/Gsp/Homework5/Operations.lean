import Gsp.Homework5.Ownership

/-!
# What each operation does to the owners

One rule for every operation: from the tokens that the operation needs, what the thread
holds afterwards. `Fine` collects what is asked of an operation in any state: nobody uses
`mRecvBuffer` while an operation that leads to a receive is in flight, a receive is
committed where its window is, and a session is returned as it was constructed.
-/

namespace Gsp.Homework5.Locking.Owners

open Tokens

section Fine

variable {workers : ℕ}

/-- The contexts whose completion leads to a receive. -/
def receives : IOType → Bool
  | .ioAccept | .ioRecvZero | .ioRecv => true
  | _ => false

/-- The operations of a client in flight that lead to a receive. -/
def receivers (client : ClientId) (state : State workers) : List Context :=
  state.inFlight.filter fun context =>
    context.mSessionObject = .client client ∧ receives context.mIoType

/-- The buffer holds the bytes of a receive that the thread has taken from the completion
port, in the window the last `PostRecv` has handed out, and nobody has used the buffer in
between. -/
def Filled (client : ClientId) (thread : Thread workers) (transferred : ℕ)
    (buffer : CircularBuffer) (touched : List (Entry workers)) : Prop :=
  ∃ older asked handed filled packet posted,
    touched = older ++ [asked, handed, filled] ∧
      HandsOut client asked handed packet.context.mWsaBuf posted ∧
      filled.op = .getQueuedCompletionStatus ∧ filled.thread = thread ∧
      filled.input.packet = some packet ∧ packet.context.mSessionObject = .client client ∧
      packet.context.mIoType = .ioRecv ∧ packet.dwTransferred = transferred ∧
      filled.input.data.length = transferred ∧ transferred ≤ packet.context.mWsaBuf.len ∧
      buffer = posted.store filled.input.data

/-- As constructed, but for a count of the sends that have failed. -/
def Renewed (session : Session) (failed : ℕ) : Prop :=
  ∃ rawRecv rawSend, session =
    { Session.construct rawRecv rawSend clientBufSize with mSendPendingCount := failed }

/-- What an operation asks of the server. -/
def Fine (thread : Thread workers) (operation : Operation)
    (server : State workers × List (Entry workers)) : Prop :=
  match operation with
  | .recvBuffer (.client client) call => receivers client server.1 = [] ∧
      ∀ transferred, call = .commit transferred →
        Filled client thread transferred (view client server).session.mRecvBuffer
          (view client server).touched
  | .memcpy (.client client) _ _ _ => receivers client server.1 = []
  | .pushFreeSession client => Renewed (view client server).session (view client server).failed
  | _ => True

/-- A worker adds a reference to a client session that has one. -/
def AddsToReferenced (thread : Thread workers) (operation : Operation) (state : State workers) :
    Prop :=
  match operation with
  | .incrementRefCount (.client client) =>
      (∃ index, thread = .worker index) → 0 < (state.session (.client client)).mRefCount
  | _ => True

/-- What the tokens of the threads mean, and what each operation needs of them. -/
def discipline (workers : ℕ) :
    Program.Discipline (Thread workers) (State workers × List (Entry workers)) Operation
      (Ghost workers) where
  Inv := Guarded
  Allowed thread operation server := AddsToReferenced thread operation server.1
  Fine := Fine

end Fine

/-! ## What an operation leaves of a session -/

section Views

variable {workers : ℕ} {state : State workers} {log : List (Entry workers)}
  {entry : Entry workers} {client : ClientId} {self : SessionId}

theorem view_log (untouched : touches client entry = false)
    (unfailed : failsSend client entry = false) :
    view client (state, log ++ [entry]) = view client (state, log) := by
  simp [view, untouched, unfailed]

theorem view_setSession_self (value : Session) :
    view client (state.setSession (.client client) value, log) =
      { view client (state, log) with session := value } := by
  simp [view, State.setSession]

theorem view_setSession_of_ne (ne : self ≠ .client client) (value : Session) :
    view client (state.setSession self value, log) = view client (state, log) := by
  simp [view, State.setSession, Function.update_of_ne ne.symm]

/-- Who has the right to change the receive buffer leaves no receive in flight. -/
theorem Law.unread {view : View workers} {tokens : Amount}
    (law : Law client view (tokens + view.carried)) (mine : 0 < mayReceive tokens) :
    ∀ context ∈ view.inFlight, receives context.mIoType = false := by
  intro context inside
  by_contra receiving
  have single := law.receiving
  have split := (List.perm_cons_erase inside).map fun context : Context =>
    amount (brings context.mIoType)
  simp only [View.carried, split.sum_eq, List.map_cons, List.sum_cons] at single
  cases kind : context.mIoType <;> rw [kind] at receiving single <;>
    simp_all [receives, brings, mayReceive, pooled] <;> omega

theorem receivers_eq_nil {tokens : Amount} (law : Law client (view client (state, log))
      (tokens + (view client (state, log)).carried))
    (mine : 0 < mayReceive tokens) : receivers client state = [] := by
  apply List.filter_eq_nil_iff.mpr
  intro context contextMem found
  rcases of_decide_eq_true found with ⟨owner, receiving⟩
  have unread := law.unread mine context (List.mem_filter.mpr ⟨contextMem, decide_eq_true owner⟩)
  rw [unread] at receiving
  cases receiving

end Views

/-! ## Rules for all operations -/

section Rules

variable {workers : ℕ} {thread : Thread workers} {ghost next : Ghost workers}
  {operation : Operation} {post : operation.Result → Ghost workers → Prop}

/-- What an operation of a thread does to what it holds. -/
abbrev Goes (thread : Thread workers) (operation : Operation) (ghost : Ghost workers)
    (post : operation.Result → Ghost workers → Prop) : Prop :=
  (program workers).logged.Steps (discipline workers) thread operation ghost post

theorem Goes.intro
    (goes : ∀ state log ghosts, Guarded (state, log) ghosts → ghosts thread = ghost →
      Fine thread operation (state, log) ∧
      ∀ input result after, AddsToReferenced thread operation state →
        State.perform thread input operation state = .ok (result, after) →
        ∃ next, Guarded (after, log ++ [⟨thread, input, operation, state⟩])
          (Function.update ghosts thread next) ∧ post result next) :
    Goes thread operation ghost post := by
  rintro ⟨state, log⟩ ghosts guarded held
  rcases goes state log ghosts guarded held with ⟨fine, steps⟩
  refine ⟨fine, ?_⟩
  rintro input result after allowed performed
  rcases Program.logged_perform performed with ⟨later, made, rfl⟩
  exact steps input result later allowed made

variable {client other : ClientId} {self : SessionId} {spent gained : Multiset Token}
  {kept : Multiset (SessionId × Token)}

theorem Ghost.share_own (tokens_eq : ghost.tokens = own (.client client) spent + kept)
    (token : Token) :
    ghost.share client token = amount spent token + kept.count (.client client, token) := by
  rw [Ghost.share, tokens_eq, Multiset.count_add, count_own]

theorem Ghost.share_of_ne (tokens_eq : ghost.tokens = own self spent + kept)
    (ne : self ≠ .client client) (token : Token) :
    ghost.share client token = kept.count (.client client, token) := by
  rw [Ghost.share, tokens_eq, Multiset.count_add, count_own_of_ne spent token ne.symm,
    Nat.zero_add]

variable {server after : State workers × List (Entry workers)}
  {ghosts : Thread workers → Ghost workers}

/-- Who has the lock of a send buffer has the sends that are not counted. -/
theorem Guarded.others_uncounted (guarded : Guarded server ghosts)
    (locked : Lock.mSendBufferLock (.client client) ∈ (ghosts thread).locks) :
    Shares.others (Ghost.share client) thread ghosts .uncounted = 0 := by
  apply Shares.others_induction (Ghost.share client) ghosts fun amount => amount .uncounted = 0
  · rfl
  · intro amount more first second
    rw [Pi.add_apply, first, second]
  · intro other ne
    by_contra counting
    have held := (guarded.knows other).counting client (Nat.pos_of_ne_zero counting)
    rw [← guarded.owners] at held locked
    exact ne (Option.some.inj (held.symm.trans locked))

/-- A thread works on a session. -/
theorem Guarded.onView (guarded : Guarded server ghosts)
    (tokens_eq : (ghosts thread).tokens = own self spent + kept)
    (next_tokens : next.tokens = own self gained + kept)
    (same_locks : next.locks = (ghosts thread).locks)
    (same_owner : after.1.owner = server.1.owner)
    (elsewhere : ∀ client, self ≠ .client client → view client after = view client server)
    (law : ∀ client, self = .client client → ∀ others,
      (Lock.mSendBufferLock self ∈ (ghosts thread).locks →
        others .uncounted = kept.count (self, .uncounted)) →
      Law client (view client server) (others + amount spent + (view client server).carried) →
      Law client (view client after) (others + amount gained + (view client after).carried))
    (receive : ∀ client buffer touched, next.receive = some (client, buffer, touched) →
      0 < next.share client .baton ∧ (view client after).session.mRecvBuffer = buffer ∧
        (view client after).touched = touched)
    (counting : ∀ client, self = .client client → 0 < amount gained .uncounted →
      Lock.mSendBufferLock (.client client) ∈ (ghosts thread).locks)
    (receives : ∀ client, self = .client client →
      ((view client after).session.mRecvBuffer = (view client server).session.mRecvBuffer ∧
        (view client after).touched = (view client server).touched) ∨
      0 < mayReceive (amount spent + (view client server).carried)) :
    Guarded after (Function.update ghosts thread next) := by
  have knows := guarded.knows thread
  apply guarded.change
  · intro lock other
    rw [same_owner, guarded.owners]
    by_cases same : other = thread
    · rw [same, Function.update_self, same_locks]
    · rw [Function.update_of_ne same]
  · intro client before
    by_cases here : self = .client client
    · subst here
      have split {ghost : Ghost workers} {tokens : Multiset Token}
          (tokens_eq : ghost.tokens = own (.client client) tokens + kept) :
          Shares.others (Ghost.share client) thread ghosts + ghost.share client =
            (Shares.others (Ghost.share client) thread ghosts +
              fun token => kept.count (.client client, token)) + amount tokens := by
        funext token
        simp only [Pi.add_apply, Ghost.share_own tokens_eq]
        omega
      rw [split tokens_eq] at before
      rw [split next_tokens]
      refine law client rfl _ ?_ before
      intro locked
      rw [Pi.add_apply, guarded.others_uncounted locked, Nat.zero_add]
    · have unchanged : next.share client = (ghosts thread).share client := by
        funext token
        rw [Ghost.share_of_ne tokens_eq here, Ghost.share_of_ne next_tokens here]
      rw [unchanged, elsewhere client here]
      exact before
  · refine ⟨?_, receive, ?_⟩
    · rw [same_locks]
      exact knows.distinct
    · intro client positive
      rw [same_locks]
      by_cases here : self = .client client
      · subst here
        by_cases mine : 0 < amount gained .uncounted
        · exact counting client rfl mine
        · apply knows.counting
          rw [Ghost.share_own next_tokens] at positive
          rw [Ghost.share_own tokens_eq]
          omega
      · apply knows.counting
        rw [Ghost.share_of_ne next_tokens here] at positive
        rw [Ghost.share_of_ne tokens_eq here]
        exact positive
  · intro client
    by_cases here : self = .client client
    · subst here
      apply (receives client rfl).imp_right
      simp only [mayReceive, pooled, Pi.add_apply, Ghost.share_own tokens_eq]
      omega
    · rw [elsewhere client here]
      exact Or.inl ⟨rfl, rfl⟩

/-- The thread leaves the receive buffers alone. -/
theorem Knows.receive_of_same (knows : Knows server ghost)
    (tokens_eq : ghost.tokens = own self spent + kept)
    (next_tokens : next.tokens = own self gained + kept)
    (keeps : next.receive = none ∨
      next.receive = ghost.receive ∧ amount spent .baton ≤ amount gained .baton)
    (same : ∀ client,
      (view client after).session.mRecvBuffer = (view client server).session.mRecvBuffer ∧
        (view client after).touched = (view client server).touched) :
    ∀ client buffer touched, next.receive = some (client, buffer, touched) →
      0 < next.share client .baton ∧ (view client after).session.mRecvBuffer = buffer ∧
        (view client after).touched = touched := by
  intro client buffer touched known
  rcases keeps with none | ⟨same_known, baton⟩
  · rw [none] at known
    cases known
  · rcases knows.receive client buffer touched (same_known ▸ known) with ⟨held, rfl, rfl⟩
    refine ⟨?_, same client⟩
    by_cases here : self = .client client
    · subst here
      rw [Ghost.share_own tokens_eq] at held
      rw [Ghost.share_own next_tokens]
      omega
    · rw [Ghost.share_of_ne tokens_eq here] at held
      rw [Ghost.share_of_ne next_tokens here]
      exact held

section Session

variable {state : State workers} {log : List (Entry workers)} {entry : Entry workers}
  {value : Session}

/-- A thread changes fields of a session but its receive buffer. -/
theorem Guarded.onSession (guarded : Guarded (state, log) ghosts)
    (tokens_eq : (ghosts thread).tokens = own self spent + kept)
    (next_tokens : next.tokens = own self gained + kept)
    (same_locks : next.locks = (ghosts thread).locks)
    (untouched : ∀ client, touches client entry = false)
    (unfailed : ∀ client, failsSend client entry = false)
    (law : ∀ client, self = .client client → ∀ others,
      Law client (view client (state, log)) (others + amount spent) →
      Law client { view client (state, log) with session := value } (others + amount gained))
    (same_recv : value.mRecvBuffer = (state.session self).mRecvBuffer)
    (keeps : next.receive = none ∨ next.receive = (ghosts thread).receive ∧
      amount spent .baton ≤ amount gained .baton)
    (counting : ∀ client, self = .client client → 0 < amount gained .uncounted →
      Lock.mSendBufferLock (.client client) ∈ (ghosts thread).locks) :
    Guarded (state.setSession self value, log ++ [entry]) (Function.update ghosts thread next) := by
  have same (client : ClientId) :
      (view client (state.setSession self value, log ++ [entry])).session.mRecvBuffer =
          (view client (state, log)).session.mRecvBuffer ∧
        (view client (state.setSession self value, log ++ [entry])).touched =
          (view client (state, log)).touched := by
    rw [view_log (untouched client) (unfailed client)]
    by_cases here : self = .client client
    · subst here
      rw [view_setSession_self]
      exact ⟨same_recv, rfl⟩
    · rw [view_setSession_of_ne here]
      exact ⟨rfl, rfl⟩
  refine guarded.onView tokens_eq next_tokens same_locks rfl ?_ ?_
    ((guarded.knows thread).receive_of_same tokens_eq next_tokens keeps same) counting
    (fun client _ => .inl (same client))
  · intro client here
    rw [view_log (untouched client) (unfailed client), view_setSession_of_ne here]
  · rintro client rfl others _ before
    rw [view_log (untouched client) (unfailed client), view_setSession_self]
    rw [add_right_comm] at before ⊢
    exact law client rfl _ before

/-- Nothing of a client changes. -/
theorem Guarded.aside (guarded : Guarded (state, log) ghosts) {after : State workers}
    (same_owner : after.owner = state.owner)
    (same_view : ∀ client,
      view client (after, log ++ [entry]) = view client (state, log)) :
    Guarded (after, log ++ [entry]) (Function.update ghosts thread (ghosts thread)) := by
  have knows := guarded.knows thread
  apply guarded.change
  · intro lock other
    rw [same_owner, Function.update_eq_self]
    exact guarded.owners lock other
  · intro client law
    rw [same_view]
    exact law
  · refine ⟨knows.distinct, ?_, knows.counting⟩
    intro client buffer touched known
    rw [same_view]
    exact knows.receive client buffer touched known
  · intro client
    rw [same_view]
    exact Or.inl ⟨rfl, rfl⟩

end Session

end Rules

/-! ## The law when a session is issued, connected and returned -/

section Laws

variable {workers : ℕ} {client : ClientId} {view : View workers} {others tokens : Amount}
  {token : Token}

/-- Who has a reference has one of those that are counted. -/
theorem Numbers.referenced (numbers : Numbers view tokens)
    (held : 0 < tokens .ref + tokens .start + tokens .hold + tokens .baton + tokens .sending) :
    0 < view.session.mRefCount ∧ pooled tokens = 0 := by
  have positive : 0 < view.session.mRefCount := by
    have counted := numbers.counted
    omega
  refine ⟨positive, ?_⟩
  by_contra some
  have zero := numbers.unused (Nat.pos_of_ne_zero some)
  omega

/-- Tokens are exchanged while the buffers stay, and none of those gained asks for a buffer
that is unused. -/
theorem Law.exchange {spent gained : Multiset Token} (law : Law client view (others + amount spent))
    {session : Session} (sameRecv : session.mRecvBuffer = view.session.mRecvBuffer)
    (sameSend : session.mSendBuffer = view.session.mSendBuffer)
    (used : amount gained .free + amount gained .fresh + amount gained .emptied +
      amount gained .cleared = 0)
    (numbers : Numbers { view with session := session } (others + amount gained)) :
    Law client { view with session := session } (others + amount gained) := by
  refine law.recount numbers sameRecv sameSend rfl ?_ ?_ (fun _ contextMem _ => contextMem)
  · simp only [Pi.add_apply]
    omega
  · simp only [Pi.add_apply]
    omega

theorem Law.disconnect (law : Law client view (others + amount 0)) :
    Law client { view with session := { view.session with mConnected := false } }
      (others + amount (if view.session.mConnected then {.hold} else 0)) := by
  rcases law.toNumbers with ⟨counted, issued, receiving, unused, pending, settled⟩
  cases connected : view.session.mConnected
  · refine law.exchange rfl rfl (by simp) ?_
    constructor <;> simp_all
  · refine law.exchange rfl rfl (by simp) ?_
    constructor <;> simp_all [pooled, mayReceive]
    omega

/-- The right to be connected becomes the reference of the connection, and the accepting
context passes the use of the receive buffer on. -/
theorem Law.connect (law : Law client view (others + amount {.start, .ref})) :
    Law client { view with session := { view.session with mConnected := true } }
      (others + amount {.baton}) := by
  rcases law.toNumbers with ⟨counted, issued, receiving, unused, pending, settled⟩
  simp [pooled, mayReceive] at counted issued receiving unused pending settled
  refine law.exchange rfl rfl (by simp) ?_
  constructor <;> simp [pooled, mayReceive] <;> omega

theorem Law.addRef (law : Law client view (others + amount 0))
    (referenced : 0 < view.session.mRefCount) :
    Law client
      { view with session := { view.session with mRefCount := view.session.mRefCount + 1 } }
      (others + amount {.ref}) := by
  rcases law.toNumbers with ⟨counted, issued, receiving, unused, pending, settled⟩
  have used : pooled (others + amount 0) = 0 := by
    by_contra some
    have zero := unused (Nat.pos_of_ne_zero some)
    omega
  simp [pooled, mayReceive] at counted issued receiving unused pending settled
  refine law.exchange rfl rfl (by simp) ?_
  constructor <;> simp [pooled, mayReceive] <;> omega

/-- The reference for the issue of a session. -/
theorem Law.startRef (law : Law client view (others + amount {.fresh})) :
    Law client
      { view with session := { view.session with mRefCount := view.session.mRefCount + 1 } }
      (others + amount {.start}) := by
  rcases law.toNumbers with ⟨counted, issued, receiving, unused, pending, settled⟩
  have zero : view.session.mRefCount = 0 := by
    apply unused
    simp [pooled]
  simp [pooled, mayReceive] at counted issued receiving unused pending settled
  refine law.exchange rfl rfl (by simp) ?_
  constructor <;> simp [pooled, mayReceive] <;> omega

/-- Who releases the last reference is to return the session. -/
theorem Law.releaseRef (law : Law client view (others + amount {token}))
    (reference : token = .ref ∨ token = .hold ∨ token = .baton) :
    Law client
      { view with session := { view.session with mRefCount := view.session.mRefCount - 1 } }
      (others + amount (if view.session.mRefCount - 1 = 0 then {.returning} else 0)) := by
  rcases law.toNumbers with ⟨counted, issued, receiving, unused, pending, settled⟩
  have used : pooled (others + amount {token}) = 0 := by
    refine (law.toNumbers.referenced ?_).2
    rcases reference with rfl | rfl | rfl <;> simp
  by_cases last : view.session.mRefCount - 1 = 0
  · rw [if_pos last]
    refine law.exchange rfl rfl (by simp) ?_
    rcases reference with rfl | rfl | rfl <;>
    · simp [pooled, mayReceive] at counted issued receiving unused pending settled used
      constructor <;> simp [pooled, mayReceive] <;> omega
  · rw [if_neg last]
    refine law.exchange rfl rfl (by simp) ?_
    rcases reference with rfl | rfl | rfl <;>
    · simp [pooled, mayReceive] at counted issued receiving unused pending settled used
      constructor <;> simp [pooled, mayReceive] <;> omega

/-- A session that is being returned has neither a connection nor references. -/
theorem Law.returning (law : Law client view (others + amount {.returning})) :
    { view with session := { view.session with mConnected := false } } = view ∧
      { view with session := { view.session with mRefCount := 0 } } = view := by
  rcases law.toNumbers with ⟨counted, issued, receiving, unused, pending, settled⟩
  have zero : view.session.mRefCount = 0 := by
    apply unused
    simp [pooled]
  have unconnected : view.session.mConnected = false := by
    cases connected : view.session.mConnected
    · rfl
    · rw [connected, Bool.toNat_true] at counted
      omega
  constructor
  · rw [← unconnected]
  · rw [← zero]

/-- `SessionReset` on the receive buffer. -/
theorem Law.resetRecv (law : Law client view (others + amount {.returning}))
    (touched : List (Entry workers))
    (unread : ∀ context ∈ view.inFlight, receives context.mIoType = false) :
    Law client { view with
        session := { view.session with mRecvBuffer := view.session.mRecvBuffer.bufferReset }
        touched := touched }
      (others + amount {.emptied}) := by
  rcases law.toNumbers with ⟨counted, issued, receiving, unused, pending, settled⟩
  simp [pooled, mayReceive] at counted issued receiving unused pending settled
  refine ⟨?_, law.recvCapacity, law.sendCapacity, ?_, ?_, ?_⟩
  · constructor <;> simp [pooled, mayReceive] <;> omega
  · intro _
    refine ⟨Region.fill view.session.mRecvBuffer.mBuffer 0 clientBufSize, ?_⟩
    rw [CircularBuffer.bufferReset, law.recvCapacity]
    rfl
  · intro positive
    apply law.sendUnused
    simpa using positive
  · intro context contextMem kind
    have other := unread context contextMem
    rw [kind] at other
    cases other

/-- `SessionReset` on the send buffer, when every send in flight has been counted. -/
theorem Law.resetSend (law : Law client view (others + amount {.emptied}))
    (counted : others .uncounted = 0) :
    Law client { view with
        session := { view.session with mSendBuffer := view.session.mSendBuffer.bufferReset } }
      (others + amount {.cleared}) := by
  rcases law.toNumbers with ⟨counted, issued, receiving, unused, pending, settled⟩
  simp [pooled, mayReceive] at counted issued receiving unused pending settled
  refine ⟨?_, law.recvCapacity, law.sendCapacity, ?_, ?_, law.posted⟩
  · constructor <;> simp [pooled, mayReceive] <;> omega
  · intro _
    apply law.recvUnused
    simp
  · intro _
    refine ⟨Region.fill view.session.mSendBuffer.mBuffer 0 clientBufSize, ?_⟩
    rw [CircularBuffer.bufferReset, law.sendCapacity]
    rfl

/-- A session goes back to the free list as it was constructed. -/
theorem Law.renewed (law : Law client view (others + amount {.cleared})) :
    Renewed view.session view.failed := by
  rcases law.toNumbers with ⟨counted, issued, receiving, unused, pending, settled⟩
  have zero : view.session.mRefCount = 0 := by
    apply unused
    simp [pooled]
  have unconnected : view.session.mConnected = false := by
    cases connected : view.session.mConnected
    · rfl
    · rw [connected, Bool.toNat_true] at counted
      omega
  have sent : view.session.mSendPendingCount = view.failed := by
    have none := settled (by simp)
    omega
  rcases law.recvUnused (by simp) with ⟨rawRecv, recv⟩
  rcases law.sendUnused (by simp) with ⟨rawSend, send⟩
  refine ⟨rawRecv, rawSend, ?_⟩
  rw [Session.construct, ← recv, ← send, ← sent, ← zero, ← unconnected]

/-- A send is counted. -/
theorem Law.countSend (law : Law client view (others + amount {.uncounted})) :
    Law client { view with session :=
        { view.session with mSendPendingCount := view.session.mSendPendingCount + 1 } }
      (others + amount 0) := by
  rcases law.toNumbers with ⟨counted, issued, receiving, unused, pending, settled⟩
  simp [pooled, mayReceive] at counted issued receiving unused pending settled
  refine law.exchange rfl rfl (by simp) ?_
  constructor <;> simp [pooled, mayReceive] <;> omega

/-- Its completion is counted. -/
theorem Law.countSent (law : Law client view (others + amount {.sending})) :
    Law client { view with session :=
        { view.session with mSendPendingCount := view.session.mSendPendingCount + -1 } }
      (others + amount {.ref}) := by
  rcases law.toNumbers with ⟨counted, issued, receiving, unused, pending, settled⟩
  simp [pooled, mayReceive] at counted issued receiving unused pending settled
  refine law.exchange rfl rfl (by simp) ?_
  constructor <;> simp [pooled, mayReceive] <;> omega

/-- Who has a reference may write to the send buffer. -/
theorem Law.setSendBuffer (law : Law client view tokens)
    (held : 0 < tokens .ref + tokens .start + tokens .hold + tokens .baton + tokens .sending)
    (buffer : CircularBuffer) (capacity : buffer.mCapacity = view.session.mSendBuffer.mCapacity) :
    Law client { view with session := { view.session with mSendBuffer := buffer } } tokens := by
  rcases law.toNumbers with ⟨counted, issued, receiving, unused, pending, settled⟩
  have used := (law.toNumbers.referenced held).2
  refine ⟨⟨counted, issued, receiving, unused, pending, settled⟩, law.recvCapacity,
    capacity.trans law.sendCapacity, law.recvUnused, ?_, law.posted⟩
  intro positive
  simp only [pooled] at used
  omega

/-- Who has the baton may use the receive buffer. -/
theorem Law.setRecvBuffer (law : Law client view tokens)
    (baton : 0 < tokens .baton) (buffer : CircularBuffer)
    (capacity : buffer.mCapacity = view.session.mRecvBuffer.mCapacity)
    {touched : List (Entry workers)}
    (unread : ∀ context ∈ view.inFlight, receives context.mIoType = false) :
    Law client { view with
        session := { view.session with mRecvBuffer := buffer }
        touched := touched } tokens := by
  rcases law.toNumbers with ⟨counted, issued, receiving, unused, pending, settled⟩
  have used := (law.toNumbers.referenced (by omega)).2
  refine ⟨⟨counted, issued, receiving, unused, pending, settled⟩,
    capacity.trans law.recvCapacity, law.sendCapacity, ?_, law.sendUnused, ?_⟩
  · intro positive
    simp only [pooled] at used
    omega
  · intro context contextMem kind
    have other := unread context contextMem
    rw [kind] at other
    cases other

@[simp]
theorem carried_session (view : View workers) (session : Session) :
    View.carried { view with session := session } = view.carried := rfl

theorem amount_replicate (count : ℕ) (first token : Token) :
    amount (Multiset.replicate count first) token = if token = first then count else 0 := by
  rw [amount, Multiset.count_replicate]
  simp only [eq_comm]

theorem View.carried_free (view : View workers) (token : Token) :
    View.carried { view with free := view.free + 1 } token =
      view.carried token + if token = .free then 1 else 0 := by
  simp only [View.carried, Pi.add_apply, amount_replicate]
  split <;> omega

/-- A place in the free list becomes the right to issue the session. -/
theorem Law.take {before : View workers}
    (law : Law client before (others + amount 0 + before.carried))
    (place : before = { view with free := view.free + 1 }) :
    Law client view (others + amount {.fresh} + view.carried) := by
  subst place
  rcases law.toNumbers with ⟨counted, issued, receiving, unused, pending, settled⟩
  simp [pooled, mayReceive, View.carried_free] at counted issued receiving unused pending settled
  refine law.recount ?_ rfl rfl rfl ?_ ?_ (fun _ contextMem _ => contextMem)
  · constructor <;> simp [pooled, mayReceive] <;> omega
  · simp [View.carried_free]
    omega
  · simp [View.carried_free]
    omega

theorem Law.giveBack (law : Law client view (others + amount {.cleared} + view.carried)) :
    Law client { view with free := view.free + 1 }
      (others + amount 0 + View.carried { view with free := view.free + 1 }) := by
  rcases law.toNumbers with ⟨counted, issued, receiving, unused, pending, settled⟩
  simp [pooled, mayReceive] at counted issued receiving unused pending settled
  refine law.recount ?_ rfl rfl rfl ?_ ?_ (fun _ contextMem _ => contextMem)
  · constructor <;> simp [pooled, mayReceive, View.carried_free] <;> omega
  · simp [View.carried_free]
    omega
  · simp [View.carried_free]
    omega

end Laws

/-! ## Locks and looks -/

section Operations

variable {workers : ℕ} {thread : Thread workers} {ghost : Ghost workers} {lock : Lock}
  {client : ClientId} {self : SessionId} {kept : Multiset (SessionId × Token)} {token : Token}

theorem goes_enterLock (lock : Lock) :
    Goes thread (.enterLock lock) ghost fun _ next =>
      next = { ghost with locks := lock :: ghost.locks } ∧
        ∀ client, lock = .mSendBufferLock (.client client) → ghost.share client .uncounted = 0 := by
  apply Goes.intro
  rintro state log ghosts guarded rfl
  refine ⟨trivial, ?_⟩
  intro input result after _ performed
  simp only [State.perform] at performed
  split at performed
  · next unowned =>
      cases performed
      have nobody (other : Thread workers) : lock ∉ (ghosts other).locks := by
        rw [← guarded.owners, unowned]
        simp
      have knows := guarded.knows thread
      have same (client : ClientId) : view client (state.setOwner lock (some thread),
          log ++ [⟨thread, input, .enterLock lock, state⟩]) = view client (state, log) :=
        view_log rfl rfl
      refine ⟨_, ?_, rfl, ?_⟩
      · apply guarded.change
        · intro held other
          simp only [State.setOwner]
          by_cases here : held = lock
          · subst here
            rw [Function.update_self]
            by_cases mine : other = thread
            · subst mine
              simp
            · rw [Function.update_of_ne mine]
              simp [Ne.symm mine, nobody other]
          · rw [Function.update_of_ne here, guarded.owners]
            by_cases mine : other = thread
            · subst mine
              simp [here]
            · rw [Function.update_of_ne mine]
        · intro client law
          rw [same]
          exact law
        · refine ⟨List.nodup_cons.mpr ⟨nobody thread, knows.distinct⟩, ?_, ?_⟩
          · intro client buffer touched known
            rw [same]
            exact knows.receive client buffer touched known
          · intro client positive
            exact List.mem_cons_of_mem _ (knows.counting client positive)
        · intro client
          rw [same]
          exact Or.inl ⟨rfl, rfl⟩
      · rintro client rfl
        by_contra counting
        exact nobody thread (knows.counting client (Nat.pos_of_ne_zero counting))
  · cases performed

theorem goes_leaveLock {rest : List Lock} (locks_eq : ghost.locks = lock :: rest)
    (counted : ∀ client, lock = .mSendBufferLock (.client client) →
      ghost.share client .uncounted = 0) :
    Goes thread (.leaveLock lock) ghost fun _ next => next = { ghost with locks := rest } := by
  apply Goes.intro
  rintro state log ghosts guarded rfl
  refine ⟨trivial, ?_⟩
  intro input result after _ performed
  cases performed
  have knows := guarded.knows thread
  have distinct := knows.distinct
  rw [locks_eq, List.nodup_cons] at distinct
  have mine : state.owner lock = some thread := by
    rw [guarded.owners, locks_eq]
    exact List.mem_cons_self
  have same (client : ClientId) : view client (state.setOwner lock none,
      log ++ [⟨thread, input, .leaveLock lock, state⟩]) = view client (state, log) :=
    view_log rfl rfl
  refine ⟨_, ?_, rfl⟩
  apply guarded.change
  · intro held other
    simp only [State.setOwner]
    by_cases here : held = lock
    · subst here
      rw [Function.update_self]
      by_cases own : other = thread
      · subst own
        simp [distinct.1]
      · rw [Function.update_of_ne own, ← guarded.owners, mine]
        simp [Ne.symm own]
    · rw [Function.update_of_ne here, guarded.owners]
      by_cases own : other = thread
      · subst own
        simp [locks_eq, here]
      · rw [Function.update_of_ne own]
  · intro client law
    rw [same]
    exact law
  · refine ⟨distinct.2, ?_, ?_⟩
    · intro client buffer touched known
      rw [same]
      exact knows.receive client buffer touched known
    · intro client positive
      have held := knows.counting client positive
      rw [locks_eq, List.mem_cons] at held
      rcases held with left | held
      · have none := counted client left.symm
        exact absurd none (Nat.ne_of_gt positive)
      · exact held
  · intro client
    rw [same]
    exact Or.inl ⟨rfl, rfl⟩

/-- The operations that only look at the server, or change what belongs to no session. -/
def isAside : Operation → Bool
  | .isConnected _ | .loadRefCount _ | .loadSendPendingCount _ | .pushSendRequest _
  | .frontSendRequest | .popSendRequest | .setUp _ | .belowMaxConnection | .countIssue
  | .countReturn => true
  | _ => false

theorem goes_aside {operation : Operation} (aside : isAside operation = true) :
    Goes thread operation ghost fun _ next => next = ghost := by
  apply Goes.intro
  rintro state log ghosts guarded rfl
  have fine : Fine thread operation (state, log) := by
    cases operation <;> trivial
  refine ⟨fine, ?_⟩
  intro input result after _ performed
  have same : after.owner = state.owner ∧ ∀ client, view client (after,
      log ++ [⟨thread, input, operation, state⟩]) = view client (state, log) := by
    cases operation with
    | pushSendRequest | frontSendRequest | popSendRequest =>
        cases thread with
        | worker index =>
            cases performed
            exact ⟨rfl, fun client => view_log rfl rfl⟩
        | _ => cases performed
    | isConnected | loadRefCount | loadSendPendingCount | setUp | belowMaxConnection
    | countIssue | countReturn =>
        cases performed
        exact ⟨rfl, fun client => view_log rfl rfl⟩
    | _ => cases aside
  exact ⟨_, guarded.aside same.1 same.2, rfl⟩

theorem goes_crash {post : Empty → Ghost workers → Prop} :
    Goes thread .crash ghost post := by
  apply Goes.intro
  rintro state log ghosts guarded rfl
  refine ⟨trivial, ?_⟩
  intro input result
  exact result.elim

/-! ## Connections and references -/

/-- Whoever disconnects a session takes over the reference for its issue. -/
theorem goes_disconnect :
    Goes thread (.exchangeConnected self false) ghost fun (connected : Bool) next =>
      next = { ghost with
        tokens := own self (if connected then {.hold} else 0) + ghost.tokens } := by
  apply Goes.intro
  rintro state log ghosts guarded rfl
  refine ⟨trivial, ?_⟩
  intro input result after _ performed
  cases performed
  refine ⟨_, ?_, rfl⟩
  refine guarded.onSession (eq_own_zero _) rfl rfl (fun _ => rfl) (fun _ => rfl) ?_ rfl
    (.inr ⟨rfl, by simp⟩) ?_
  · rintro client rfl others law
    exact law.disconnect
  · intro client _
    split <;> simp

theorem goes_connect (tokens_eq : ghost.tokens = own (.client client) {.start, .ref} + kept) :
    Goes thread (.exchangeConnected (.client client) true) ghost fun _ next =>
      next = { ghost with tokens := own (.client client) {.baton} + kept } := by
  apply Goes.intro
  rintro state log ghosts guarded rfl
  refine ⟨trivial, ?_⟩
  intro input result after _ performed
  cases performed
  refine ⟨_, ?_, rfl⟩
  refine guarded.onSession tokens_eq rfl rfl (fun _ => rfl) (fun _ => rfl) ?_ rfl
    (.inr ⟨rfl, by simp⟩) (by simp)
  rintro other ⟨⟩ others law
  exact law.connect

theorem goes_connectServer (index : ℕ) :
    Goes thread (.exchangeConnected (.server index) true) ghost fun _ next => next = ghost := by
  apply Goes.intro
  rintro state log ghosts guarded rfl
  refine ⟨trivial, ?_⟩
  intro input result after _ performed
  cases performed
  exact ⟨_, guarded.onSession (eq_own_zero _) (eq_own_zero _) rfl (fun _ => rfl) (fun _ => rfl)
    nofun rfl (.inr ⟨rfl, le_rfl⟩) nofun, rfl⟩

/-- A reference for a context. -/
theorem goes_addRef (issued : (∃ index, thread = .worker index) ∨
      (∃ index, self = .server index) ∨ 0 < ghost.tokens.count (self, .start)) :
    Goes thread (.incrementRefCount self) ghost fun _ next =>
      next = { ghost with tokens := own self {.ref} + ghost.tokens } := by
  apply Goes.intro
  rintro state log ghosts guarded rfl
  refine ⟨trivial, ?_⟩
  intro input result after adds performed
  cases performed
  refine ⟨_, ?_, rfl⟩
  refine guarded.onSession (eq_own_zero _) rfl rfl (fun _ => rfl) (fun _ => rfl) ?_ rfl
    (.inr ⟨rfl, by simp⟩) (by simp)
  rintro client rfl others law
  apply law.addRef
  rcases issued with worker | ⟨index, same⟩ | start
  · exact adds worker
  · cases same
  · have total := (guarded.law client).toNumbers
    rw [(guarded.few client).total_eq thread] at total
    have mine : 0 < (ghosts thread).share client .start := start
    refine (total.referenced ?_).1
    simp only [Pi.add_apply]
    omega

theorem goes_startRef (tokens_eq : ghost.tokens = own (.client client) {.fresh} + kept) :
    Goes thread (.incrementRefCount (.client client)) ghost fun _ next =>
      next = { ghost with tokens := own (.client client) {.start} + kept } := by
  apply Goes.intro
  rintro state log ghosts guarded rfl
  refine ⟨trivial, ?_⟩
  intro input result after _ performed
  cases performed
  refine ⟨_, ?_, rfl⟩
  refine guarded.onSession tokens_eq rfl rfl (fun _ => rfl) (fun _ => rfl) ?_ rfl
    (.inr ⟨rfl, by simp⟩) (by simp)
  rintro other ⟨⟩ others law
  exact law.startRef

/-- Who releases the last reference is to return the session. -/
theorem goes_releaseRef (tokens_eq : ghost.tokens = own (.client client) {token} + kept)
    (reference : token = .ref ∨ token = .hold ∨ token = .baton) :
    Goes thread (.decrementRefCount (.client client)) ghost fun (count : ℤ) next =>
      next = { ghost with
        tokens := own (.client client) (if count = 0 then {.returning} else 0) + kept
        receive := none } := by
  apply Goes.intro
  rintro state log ghosts guarded rfl
  refine ⟨trivial, ?_⟩
  intro input result after _ performed
  cases performed
  refine ⟨_, ?_, rfl⟩
  refine guarded.onSession tokens_eq rfl rfl (fun _ => rfl) (fun _ => rfl) ?_ rfl (.inl rfl) ?_
  · rintro other ⟨⟩ others law
    exact law.releaseRef reference
  · intro other _
    split <;> simp

theorem goes_releaseServerRef (index : ℕ)
    (tokens_eq : ghost.tokens = own (.server index) {token} + kept) :
    Goes thread (.decrementRefCount (.server index)) ghost fun (_ : ℤ) next =>
      next = { ghost with tokens := kept, receive := none } := by
  apply Goes.intro
  rintro state log ghosts guarded rfl
  refine ⟨trivial, ?_⟩
  intro input result after _ performed
  cases performed
  refine ⟨_, ?_, rfl⟩
  exact guarded.onSession tokens_eq (eq_own_zero _) rfl (fun _ => rfl) (fun _ => rfl) nofun rfl
    (.inl rfl) nofun

/-! ## Issuing and returning -/

theorem goes_storeConnected (tokens_eq : ghost.tokens = own (.client client) {.returning} + kept) :
    Goes thread (.storeConnected (.client client)) ghost fun _ next => next = ghost := by
  apply Goes.intro
  rintro state log ghosts guarded rfl
  refine ⟨trivial, ?_⟩
  intro input result after _ performed
  cases performed
  refine ⟨_, ?_, rfl⟩
  refine guarded.onSession tokens_eq tokens_eq rfl (fun _ => rfl) (fun _ => rfl) ?_ rfl
    (.inr ⟨rfl, le_rfl⟩) (by simp)
  rintro other ⟨⟩ others law
  have same := law.returning.1
  exact same.symm ▸ law

theorem goes_storeRefCount (tokens_eq : ghost.tokens = own (.client client) {.returning} + kept) :
    Goes thread (.storeRefCount (.client client)) ghost fun _ next => next = ghost := by
  apply Goes.intro
  rintro state log ghosts guarded rfl
  refine ⟨trivial, ?_⟩
  intro input result after _ performed
  cases performed
  refine ⟨_, ?_, rfl⟩
  refine guarded.onSession tokens_eq tokens_eq rfl (fun _ => rfl) (fun _ => rfl) ?_ rfl
    (.inr ⟨rfl, le_rfl⟩) (by simp)
  rintro other ⟨⟩ others law
  have same := law.returning.2
  exact same.symm ▸ law

/-- What the law says to a thread that holds these tokens. -/
theorem Guarded.law_spent {state : State workers} {log : List (Entry workers)}
    {ghosts : Thread workers → Ghost workers} {spent : Multiset Token}
    (guarded : Guarded (state, log) ghosts)
    (tokens_eq : (ghosts thread).tokens = own (.client client) spent + kept) :
    ∃ others, Law client (view client (state, log))
      (others + amount spent + (view client (state, log)).carried) := by
  have law := guarded.law client
  rw [(guarded.few client).total_eq thread] at law
  refine ⟨Shares.others (Ghost.share client) thread ghosts +
    fun token => kept.count (.client client, token), ?_⟩
  convert law using 2
  funext token
  simp only [Pi.add_apply, Ghost.share_own tokens_eq]
  omega

theorem goes_popFreeSession :
    Goes thread .popFreeSession ghost fun (client : ClientId) next =>
      next = { ghost with tokens := own (.client client) {.fresh} + ghost.tokens } := by
  apply Goes.intro
  rintro state log ghosts guarded rfl
  refine ⟨trivial, ?_⟩
  rintro input (taken : ClientId) after _ performed
  simp only [State.perform] at performed
  split at performed
  · cases performed
  · next rest list =>
      cases performed
      have same (client : ClientId) : view client ({ state with
            manager := { state.manager with mFreeSessionList := rest } },
          log ++ [⟨thread, input, .popFreeSession, state⟩]) =
          { view client (state, log) with free := rest.count client } := by
        rw [view_log rfl rfl]
        rfl
      refine ⟨_, ?_, rfl⟩
      refine guarded.onView (eq_own_zero _) rfl rfl rfl ?_ ?_ ?_ (by simp) ?_
      · intro client here
        have other : taken ≠ client := fun eq => here (congrArg _ eq)
        rw [same]
        simp [view, list, other]
      · rintro client ⟨⟩ others _ law
        rw [same]
        apply law.take
        simp [view, list]
      · refine (guarded.knows thread).receive_of_same (eq_own_zero _) rfl (.inr ⟨rfl, by simp⟩) ?_
        intro client
        rw [same]
        exact ⟨rfl, rfl⟩
      · intro client _
        rw [same]
        exact Or.inl ⟨rfl, rfl⟩

theorem goes_pushFreeSession
    (tokens_eq : ghost.tokens = own (.client client) {.cleared} + kept) :
    Goes thread (.pushFreeSession client) ghost fun _ next =>
      next = { ghost with tokens := kept } := by
  apply Goes.intro
  rintro state log ghosts guarded rfl
  rcases guarded.law_spent tokens_eq with ⟨others, law⟩
  rw [add_right_comm] at law
  refine ⟨law.renewed, ?_⟩
  intro input result after _ performed
  cases performed
  have same (other : ClientId) : view other ({ state with
        manager := { state.manager with
          mFreeSessionList := client :: state.manager.mFreeSessionList } },
      log ++ [⟨thread, input, .pushFreeSession client, state⟩]) =
      { view other (state, log) with
        free := (client :: state.manager.mFreeSessionList).count other } := by
    rw [view_log rfl rfl]
    rfl
  refine ⟨_, ?_, rfl⟩
  refine guarded.onView tokens_eq (eq_own_zero _) rfl rfl ?_ ?_ ?_ (by simp) ?_
  · intro other here
    have ne : client ≠ other := fun eq => here (congrArg _ eq)
    rw [same]
    simp [view, ne]
  · rintro other ⟨⟩ others _ law
    rw [same, List.count_cons_self]
    exact law.giveBack
  · refine (guarded.knows thread).receive_of_same tokens_eq (eq_own_zero _)
      (.inr ⟨rfl, by simp⟩) ?_
    intro client
    rw [same]
    exact ⟨rfl, rfl⟩
  · intro client _
    rw [same]
    exact Or.inl ⟨rfl, rfl⟩

end Operations

end Gsp.Homework5.Locking.Owners
