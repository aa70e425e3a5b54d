import Gsp.Homework5.Operations

/-!
# Buffers and contexts in flight

Who has the baton works on the receive buffer and knows what has been done to it. A
context takes tokens along when it is handed to Winsock and brings them back when it
completes; the baton goes from one receive to the next.
-/

namespace Gsp.Homework5.Locking.Owners

open Tokens

/-! ## Buffers -/

section Buffers

variable {workers : ℕ} {thread : Thread workers} {ghost : Ghost workers} {client : ClientId}
  {self : SessionId} {kept : Multiset (SessionId × Token)} {state : State workers}
  {log : List (Entry workers)} {ghosts : Thread workers → Ghost workers}

theorem capacity_onCall (buffer : CircularBuffer) (call : BufferCall) :
    (buffer.onCall call).2.mCapacity = buffer.mCapacity := by
  cases call with
  | getFreeSpaceSize => exact buffer.capacity_getFreeSpaceSize
  | commit len => exact buffer.capacity_commit len
  | remove len => exact buffer.capacity_remove len
  | _ => rfl

/-- No receive of a client is in flight while a thread has the use of its buffer. -/
theorem Guarded.receivers_eq_nil (guarded : Guarded (state, log) ghosts)
    (mine : 0 < mayReceive ((ghosts thread).share client)) : receivers client state = [] := by
  have law := guarded.law client
  rw [(guarded.few client).total_eq thread] at law
  apply Owners.receivers_eq_nil law
  simp only [mayReceive, pooled, Pi.add_apply] at mine ⊢
  omega

theorem unread_of_receivers (none : receivers client state = []) :
    ∀ context ∈ (view client (state, log)).inFlight, receives context.mIoType = false := by
  intro context contextMem
  rcases List.mem_filter.mp contextMem with ⟨inFlight, owner⟩
  by_contra receiving
  have found : context ∈ receivers client state := by
    apply List.mem_filter.mpr
    simp_all
  rw [none] at found
  cases found

/-- A send is counted before its thread leaves the lock. -/
theorem View.carried_uncounted (view : View workers) : view.carried .uncounted = 0 := by
  rw [View.carried, Pi.add_apply, amount_replicate, if_neg (by decide), Nat.zero_add]
  induction view.inFlight with
  | nil => rfl
  | cons context rest ih =>
      rw [List.map_cons, List.sum_cons, Pi.add_apply, ih]
      cases context.mIoType <;> simp [brings]

theorem mayReceive_baton (ghost : Ghost workers) (baton : 0 < ghost.share client .baton) :
    0 < mayReceive (ghost.share client) := by
  simp only [mayReceive]
  omega

/-- The thread makes this of the buffers of a session whose baton it has. -/
theorem Guarded.work {entry : Entry workers} (guarded : Guarded (state, log) ghosts)
    (baton : 0 < (ghosts thread).share client .baton) (recv send : CircularBuffer)
    (recvCapacity : recv.mCapacity = (state.session (.client client)).mRecvBuffer.mCapacity)
    (sendCapacity : send.mCapacity = (state.session (.client client)).mSendBuffer.mCapacity)
    (elsewhere : ∀ other ≠ client, touches other entry = false)
    (unfailed : ∀ other, failsSend other entry = false)
    {known : Option (ClientId × CircularBuffer × List (Entry workers))}
    (known_eq : known = none ∨
      known = some (client, recv, (log ++ [entry]).filter (touches client))) :
    Guarded
      (state.setSession (.client client)
        { state.session (.client client) with mRecvBuffer := recv, mSendBuffer := send },
        log ++ [entry])
      (Function.update ghosts thread { ghosts thread with receive := known }) := by
  have unread := guarded.receivers_eq_nil (mayReceive_baton _ baton)
  rcases exists_own baton with ⟨kept, tokens_eq⟩
  have here : view client (state.setSession (.client client)
        { state.session (.client client) with mRecvBuffer := recv, mSendBuffer := send },
      log ++ [entry]) =
      { view client (state, log) with
        session :=
          { (view client (state, log)).session with mRecvBuffer := recv, mSendBuffer := send }
        touched := (log ++ [entry]).filter (touches client) } := by
    simp [view, State.setSession, unfailed]
  refine guarded.onView tokens_eq tokens_eq rfl rfl ?_ ?_ ?_ (by simp) ?_
  · intro other ne
    have others : other ≠ client := fun eq => ne (congrArg _ eq.symm)
    rw [view_log (elsewhere other others) (unfailed other), view_setSession_of_ne ne]
  · rintro other ⟨⟩ others _ law
    rw [here]
    have written := law.setSendBuffer (by simp) send sendCapacity
    exact written.setRecvBuffer (by simp) recv recvCapacity (unread_of_receivers unread)
  · intro other buffer touched same
    rcases known_eq with rfl | rfl
    · cases same
    · cases same
      refine ⟨baton, ?_, ?_⟩ <;> rw [here]
  · intro other _
    right
    simp [mayReceive]

/-- The entry is a call of the thread on the receive buffer. -/
structure Called (client : ClientId) (thread : Thread workers) (call : BufferCall)
    (buffer : CircularBuffer) (entry : Entry workers) : Prop where
  op : entry.op = .recvBuffer (.client client) call
  caller : entry.thread = thread
  buffer : (entry.state.session (.client client)).mRecvBuffer = buffer

/-- Who has the baton knows what its calls do. -/
theorem goes_recvBuffer (baton : 0 < ghost.share client .baton) (call : BufferCall)
    (fills : ∀ transferred, call = .commit transferred → ∃ buffer touched,
      ghost.receive = some (client, buffer, touched) ∧
        Filled client thread transferred buffer touched) :
    Goes thread (.recvBuffer (.client client) call) ghost fun result next =>
      ∃ buffer touched entry, Called client thread call buffer entry ∧
        (∀ known before, ghost.receive = some (client, known, before) →
          buffer = known ∧ touched = before) ∧
        result = (buffer.onCall call).1 ∧
        next = { ghost with
          receive := some (client, (buffer.onCall call).2, touched ++ [entry]) } := by
  apply Goes.intro
  rintro state log ghosts guarded rfl
  have knows := guarded.knows thread
  refine ⟨⟨guarded.receivers_eq_nil (mayReceive_baton _ baton), ?_⟩, ?_⟩
  · rintro transferred same
    rcases fills transferred same with ⟨buffer, touched, known, filled⟩
    rcases knows.receive client buffer touched known with ⟨_, buffer_eq, touched_eq⟩
    rw [buffer_eq, touched_eq]
    exact filled
  · intro input result after _ performed
    cases performed
    refine ⟨_, ?_, _, log.filter (touches client),
      ⟨thread, input, .recvBuffer (.client client) call, state⟩, ⟨rfl, rfl, rfl⟩, ?_, rfl, rfl⟩
    · refine guarded.work baton _ _ (capacity_onCall _ _) rfl ?_ (fun _ => rfl) (.inr ?_)
      · intro other ne
        simp [touches, Ne.symm ne]
      · simp [touches]
    · intro known before receive
      rcases knows.receive client known before receive with ⟨_, buffer_eq, touched_eq⟩
      exact ⟨buffer_eq, touched_eq⟩

theorem goes_recvBufferServer (index : ℕ) (call : BufferCall) :
    Goes thread (.recvBuffer (.server index) call) ghost fun _ next => next = ghost := by
  apply Goes.intro
  rintro state log ghosts guarded rfl
  refine ⟨trivial, ?_⟩
  intro input result after _ performed
  cases performed
  refine ⟨_, guarded.aside rfl ?_, rfl⟩
  intro client
  rw [view_log (by simp [touches]) rfl, view_setSession_of_ne (by simp)]

/-- `SessionReset` on the receive buffer. -/
theorem goes_resetRecv (tokens_eq : ghost.tokens = own (.client client) {.returning} + kept) :
    Goes thread (.recvBuffer (.client client) .bufferReset) ghost fun _ next =>
      next = { ghost with tokens := own (.client client) {.emptied} + kept, receive := none } := by
  apply Goes.intro
  rintro state log ghosts guarded rfl
  have mine : 0 < mayReceive ((ghosts thread).share client) := by
    have returning : 0 < (ghosts thread).share client .returning := by
      simp [Ghost.share_own tokens_eq]
    simp only [mayReceive, pooled]
    omega
  have unread := guarded.receivers_eq_nil mine
  refine ⟨⟨unread, by rintro _ ⟨⟩⟩, ?_⟩
  intro input result after _ performed
  cases performed
  refine ⟨_, ?_, rfl⟩
  have here : view client (state.setSession (.client client)
        { state.session (.client client) with
          mRecvBuffer := (state.session (.client client)).mRecvBuffer.bufferReset },
      log ++ [⟨thread, input, .recvBuffer (.client client) .bufferReset, state⟩]) =
      { view client (state, log) with
        session :=
          { (view client (state, log)).session with
            mRecvBuffer := (view client (state, log)).session.mRecvBuffer.bufferReset }
        touched := log.filter (touches client) ++
          [⟨thread, input, .recvBuffer (.client client) .bufferReset, state⟩] } := by
    simp [view, State.setSession, touches, failsSend]
  refine guarded.onView tokens_eq rfl rfl rfl ?_ ?_ (by rintro _ _ _ ⟨⟩) (by simp) ?_
  · intro other ne
    rw [view_log (by simpa [touches] using ne) rfl, view_setSession_of_ne ne]
  · rintro other ⟨⟩ others _ law
    rw [add_right_comm] at law
    rw [here, add_right_comm]
    exact law.resetRecv _ (unread_of_receivers unread)
  · intro other _
    right
    simp [mayReceive, pooled]

/-- `memcpy` reads the receive buffer. -/
theorem goes_memcpy (dest : ℕ) (source : Option ℕ) (len : ℕ)
    (baton : ∀ client, self = .client client → 0 < ghost.share client .baton) :
    Goes thread (.memcpy self dest source len) ghost fun _ next =>
      next = { ghost with receive := none } := by
  apply Goes.intro
  rintro state log ghosts guarded rfl
  cases self with
  | server index =>
      refine ⟨trivial, ?_⟩
      intro input result after _ performed
      cases source with
      | none => cases performed
      | some source =>
          cases performed
          refine ⟨_, ?_, rfl⟩
          refine guarded.onSession (eq_own_zero _) (eq_own_zero _) rfl ?_ (fun _ => rfl) nofun rfl
            (.inl rfl) nofun
          intro client
          simp [touches]
  | client client =>
      have mine := baton client rfl
      refine ⟨guarded.receivers_eq_nil (mayReceive_baton _ mine), ?_⟩
      intro input result after _ performed
      cases source with
      | none => cases performed
      | some source =>
          cases performed
          refine ⟨_, ?_, rfl⟩
          refine guarded.work mine _ (copy dest source len _).mSendBuffer rfl rfl ?_ ?_ (.inl rfl)
          · intro other ne
            simp [touches, Ne.symm ne]
          · exact fun _ => rfl

/-! ## Sending -/

/-- The send buffer is changed with the reference of a receive or of a send. -/
theorem goes_sendBuffer (call : BufferCall)
    (held : ∀ client, self = .client client →
      0 < ghost.share client .baton ∨ 0 < ghost.share client .sending ∨
        ∀ buffer : CircularBuffer, (buffer.onCall call).2 = buffer) :
    Goes thread (.sendBuffer self call) ghost fun _ next => next = ghost := by
  apply Goes.intro
  rintro state log ghosts guarded rfl
  refine ⟨trivial, ?_⟩
  intro input result after _ performed
  cases performed
  have writes : ∃ spent kept, (ghosts thread).tokens = own self spent + kept ∧
      amount spent .uncounted = 0 ∧ ∀ client, self = .client client → ∀ others : Amount,
        Law client (view client (state, log)) (others + amount spent) →
        Law client { view client (state, log) with session :=
            { (view client (state, log)).session with
              mSendBuffer := ((view client (state, log)).session.mSendBuffer.onCall call).2 } }
          (others + amount spent) := by
    cases self with
    | server index => exact ⟨0, _, eq_own_zero _, rfl, nofun⟩
    | client client =>
        rcases held client rfl with baton | sending | same
        · rcases exists_own baton with ⟨kept, tokens_eq⟩
          refine ⟨{.baton}, kept, tokens_eq, rfl, ?_⟩
          rintro other ⟨⟩ others law
          exact law.setSendBuffer (by simp) _ (capacity_onCall _ _)
        · rcases exists_own sending with ⟨kept, tokens_eq⟩
          refine ⟨{.sending}, kept, tokens_eq, rfl, ?_⟩
          rintro other ⟨⟩ others law
          exact law.setSendBuffer (by simp) _ (capacity_onCall _ _)
        · refine ⟨0, _, eq_own_zero _, rfl, ?_⟩
          intro other _ others law
          rw [same]
          exact law
  rcases writes with ⟨spent, kept, tokens_eq, counted, law⟩
  refine ⟨_, guarded.onSession tokens_eq tokens_eq rfl (fun _ => rfl) (fun _ => rfl) ?_ rfl
    (.inr ⟨rfl, le_rfl⟩) ?_, rfl⟩
  · rintro client rfl others before
    exact law client rfl others before
  · intro client _ counting
    omega

/-- `SessionReset` on the send buffer, under its lock. -/
theorem goes_resetSend (tokens_eq : ghost.tokens = own (.client client) {.emptied} + kept)
    (locked : Lock.mSendBufferLock (.client client) ∈ ghost.locks)
    (counted : ghost.share client .uncounted = 0) :
    Goes thread (.sendBuffer (.client client) .bufferReset) ghost fun _ next =>
      next = { ghost with tokens := own (.client client) {.cleared} + kept } := by
  apply Goes.intro
  rintro state log ghosts guarded rfl
  refine ⟨trivial, ?_⟩
  intro input result after _ performed
  cases performed
  have mine : kept.count (.client client, .uncounted) = 0 := by
    rw [Ghost.share_own tokens_eq] at counted
    omega
  have here : view client (state.setSession (.client client)
        { state.session (.client client) with
          mSendBuffer := (state.session (.client client)).mSendBuffer.bufferReset },
      log ++ [⟨thread, input, .sendBuffer (.client client) .bufferReset, state⟩]) =
      { view client (state, log) with
        session :=
          { (view client (state, log)).session with
            mSendBuffer := (view client (state, log)).session.mSendBuffer.bufferReset } } := by
    rw [view_log rfl rfl, view_setSession_self]
    rfl
  have elsewhere (other : ClientId) (ne : SessionId.client client ≠ .client other) :
      view other (state.setSession (.client client)
          { state.session (.client client) with
            mSendBuffer := (state.session (.client client)).mSendBuffer.bufferReset },
        log ++ [⟨thread, input, .sendBuffer (.client client) .bufferReset, state⟩]) =
        view other (state, log) := by
    rw [view_log rfl rfl, view_setSession_of_ne ne]
  refine ⟨_, ?_, rfl⟩
  refine guarded.onView tokens_eq rfl rfl rfl elsewhere ?_ ?_ (by simp) ?_
  · rintro other ⟨⟩ others alone law
    rw [here, add_right_comm]
    rw [add_right_comm] at law
    apply law.resetSend
    rw [Pi.add_apply, alone locked, mine, View.carried_uncounted]
  · refine (guarded.knows thread).receive_of_same tokens_eq rfl (.inr ⟨rfl, by simp⟩) ?_
    intro other
    by_cases same : SessionId.client client = .client other
    · cases same
      rw [here]
      exact ⟨rfl, rfl⟩
    · rw [elsewhere other same]
      exact ⟨rfl, rfl⟩
  · rintro other ⟨⟩
    left
    rw [here]
    exact ⟨rfl, rfl⟩

theorem goes_countSend (tokens_eq : ghost.tokens = own self {.uncounted} + kept) :
    Goes thread (.addSendPendingCount self 1) ghost fun _ next =>
      next = { ghost with tokens := kept } := by
  apply Goes.intro
  rintro state log ghosts guarded rfl
  refine ⟨trivial, ?_⟩
  intro input result after _ performed
  cases performed
  refine ⟨_, ?_, rfl⟩
  refine guarded.onSession tokens_eq (eq_own_zero _) rfl (fun _ => rfl) (fun _ => rfl) ?_ rfl
    (.inr ⟨rfl, by simp⟩) (by simp)
  rintro client rfl others law
  exact law.countSend

theorem goes_countSent (tokens_eq : ghost.tokens = own self {.sending} + kept) :
    Goes thread (.addSendPendingCount self (-1)) ghost fun _ next =>
      next = { ghost with tokens := own self {.ref} + kept } := by
  apply Goes.intro
  rintro state log ghosts guarded rfl
  refine ⟨trivial, ?_⟩
  intro input result after _ performed
  cases performed
  refine ⟨_, ?_, rfl⟩
  refine guarded.onSession tokens_eq rfl rfl (fun _ => rfl) (fun _ => rfl) ?_ rfl
    (.inr ⟨rfl, by simp⟩) (by simp)
  rintro client rfl others law
  exact law.countSent

end Buffers

/-! ## Contexts -/

/-- What is held beside the reference for a context that is handed to Winsock. -/
def stake : IOType → Multiset Token
  | .ioAccept => {.start}
  | .ioRecvZero | .ioRecv => {.baton}
  | .ioDisconnect => {.hold}
  | .ioSend | .ioConnect | .ioNone => 0

/-- What is to be held for a context that is handed to Winsock. -/
def needs (mIoType : IOType) : Multiset Token := {.ref} + stake mIoType

/-- What is left with the thread. -/
def leaves : IOType → Multiset Token
  | .ioRecvZero | .ioRecv => {.ref}
  | .ioSend => {.uncounted}
  | _ => 0

section Laws

variable {workers : ℕ} {client : ClientId} {view : View workers} {others tokens : Amount}
  {context : Context} {rest : List Context}

theorem View.carried_of_perm (split : view.inFlight.Perm (context :: rest)) (token : Token) :
    view.carried token =
      amount (brings context.mIoType) token +
        View.carried { view with inFlight := rest } token := by
  have sum := split.map fun context : Context => amount (brings context.mIoType)
  simp only [View.carried, Pi.add_apply, sum.sum_eq, List.map_cons, List.sum_cons]
  omega

theorem Law.setInFlight (law : Law client view tokens) {contexts : List Context}
    (posted : ∀ context ∈ contexts, context.mIoType = .ioRecv →
      Posted client context.mWsaBuf view.session.mRecvBuffer view.touched) :
    Law client { view with inFlight := contexts } tokens :=
  ⟨⟨law.counted, law.issued, law.receiving, law.unused, law.pending, law.settled⟩,
    law.recvCapacity, law.sendCapacity, law.recvUnused, law.sendUnused, posted⟩

theorem needs_eq {mIoType : IOType} (unsent : mIoType ≠ .ioSend)
    (accepted : mIoType ≠ .ioConnect) :
    needs mIoType = leaves mIoType + brings mIoType := by
  cases mIoType <;> first | contradiction | decide

/-- The context takes its tokens along. -/
theorem Law.submit
    (law : Law client view (others + amount (needs context.mIoType) + view.carried))
    (accepted : context.mIoType ≠ .ioConnect)
    (posted : context.mIoType = .ioRecv →
      Posted client context.mWsaBuf view.session.mRecvBuffer view.touched) :
    Law client { view with inFlight := context :: view.inFlight }
      (others + amount (leaves context.mIoType) +
        View.carried { view with inFlight := context :: view.inFlight }) := by
  have carried : View.carried { view with inFlight := context :: view.inFlight } =
      amount (brings context.mIoType) + view.carried := by
    funext token
    exact View.carried_of_perm (List.Perm.refl _) token
  have all : ∀ other ∈ context :: view.inFlight, other.mIoType = .ioRecv →
      Posted client other.mWsaBuf view.session.mRecvBuffer view.touched := by
    intro other otherMem kind
    rcases List.mem_cons.mp otherMem with rfl | old
    · exact posted kind
    · exact law.posted other old kind
  rw [carried]
  by_cases kind : context.mIoType = .ioSend
  · rw [kind] at law ⊢
    rcases law.toNumbers with ⟨counted, issued, receiving, unused, pending, settled⟩
    have used := (law.toNumbers.referenced (by simp [needs])).2
    refine ⟨?_, law.recvCapacity, law.sendCapacity, ?_, ?_, all⟩
    · constructor <;> simp_all [pooled, mayReceive, needs, stake, leaves, brings] <;> omega
    · intro positive
      apply law.recvUnused
      simpa [needs, stake, leaves, brings] using positive
    · intro positive
      apply law.sendUnused
      simpa [needs, stake, leaves, brings] using positive
  · have tokens_eq : others + amount (leaves context.mIoType) +
        (amount (brings context.mIoType) + view.carried) =
        others + amount (needs context.mIoType) + view.carried := by
      funext token
      rw [needs_eq kind accepted]
      simp only [Pi.add_apply, amount_add]
      omega
    rw [tokens_eq]
    exact law.setInFlight all

/-- A completed context brings its tokens back. -/
theorem Law.dequeue (law : Law client view (others + amount 0 + view.carried))
    (split : view.inFlight.Perm (context :: rest)) :
    Law client { view with inFlight := rest }
      (others + amount (brings context.mIoType) +
        View.carried { view with inFlight := rest }) := by
  have tokens_eq : others + amount (brings context.mIoType) +
      View.carried { view with inFlight := rest } = others + amount 0 + view.carried := by
    funext token
    simp only [Pi.add_apply, View.carried_of_perm split, amount_zero]
    omega
  rw [tokens_eq]
  apply law.setInFlight
  intro other otherMem kind
  exact law.posted other (split.mem_iff.mpr (List.mem_cons_of_mem _ otherMem)) kind

/-- A failed send is not counted down. -/
theorem Law.failSend (law : Law client view (others + amount {.sending})) :
    Law client { view with failed := view.failed + 1 } (others + amount {.ref}) := by
  rcases law.toNumbers with ⟨counted, issued, receiving, unused, pending, settled⟩
  refine law.recount ?_ rfl rfl rfl ?_ ?_ (fun _ contextMem _ => contextMem)
  · constructor <;> simp_all [pooled, mayReceive] <;> omega
  · simp
  · simp

end Laws

section Contexts

variable {workers : ℕ} {thread : Thread workers} {ghost : Ghost workers} {context : Context}
  {kept : Multiset (SessionId × Token)} {state : State workers} {log : List (Entry workers)}
  {packet : Packet} {client : ClientId}

/-- The context takes what it needs along, or nothing happens. -/
theorem goes_submit
    (tokens_eq : ghost.tokens = own context.mSessionObject (needs context.mIoType) + kept)
    (accepted : ∀ client, context.mSessionObject = .client client → context.mIoType ≠ .ioConnect)
    (locked : ∀ client, context.mSessionObject = .client client → context.mIoType = .ioSend →
      Lock.mSendBufferLock (.client client) ∈ ghost.locks)
    (posted : ∀ client, context.mSessionObject = .client client → context.mIoType = .ioRecv →
      ∃ buffer touched, ghost.receive = some (client, buffer, touched) ∧
        Posted client context.mWsaBuf buffer touched) :
    Goes thread (.submit context) ghost fun (submitted : Bool) next =>
      next = if submitted then
        { ghost with
          tokens := own context.mSessionObject (leaves context.mIoType) + kept
          receive := none }
      else ghost := by
  apply Goes.intro
  rintro state log ghosts guarded rfl
  refine ⟨trivial, ?_⟩
  intro input result after _ performed
  have knows := guarded.knows thread
  simp only [State.perform] at performed
  split at performed
  · cases performed
    have same (client : ClientId) :
        view client ({ state with inFlight := context :: state.inFlight },
          log ++ [⟨thread, input, .submit context, state⟩]) =
        { view client (state, log) with
          inFlight := (context :: state.inFlight).filter (·.mSessionObject = .client client) } := by
      rw [view_log rfl rfl]
      rfl
    refine ⟨_, ?_, rfl⟩
    refine guarded.onView tokens_eq rfl rfl rfl ?_ ?_ (by rintro _ _ _ ⟨⟩) ?_ ?_
    · intro client ne
      rw [same, List.filter_cons_of_neg (by simpa using ne)]
      rfl
    · intro client owner others _ law
      rw [same, List.filter_cons_of_pos (by simpa using owner)]
      apply law.submit (accepted client owner)
      intro kind
      rcases posted client owner kind with ⟨buffer, touched, known, window⟩
      rcases knows.receive client buffer touched known with ⟨_, rfl, rfl⟩
      exact window
    · intro client owner counting
      apply locked client owner
      cases kind : context.mIoType <;> simp [kind, leaves] at counting ⊢
    · intro client _
      rw [same]
      exact Or.inl ⟨rfl, rfl⟩
  · cases performed
    exact ⟨_, guarded.aside rfl fun client => view_log rfl rfl, rfl⟩

/-- What the thread gains with a completion. -/
def gains (packet : Packet) : Multiset Token :=
  if packet.context.mIoType = .ioSend ∧ (packet.ret = false ∨ packet.dwTransferred = 0) then {.ref}
  else brings packet.context.mIoType

/-- The completion of a receive of the client that has filled its window. -/
def Receives (client : ClientId) (packet : Packet) : Prop :=
  packet.context.mSessionObject = .client client ∧ packet.context.mIoType = .ioRecv ∧
    packet.ret = true

/-- The status of a completion, and what the thread holds for it. -/
def Dequeued (thread : Thread workers) (ghost : Ghost workers) (packet : Option Packet)
    (next : Ghost workers) : Prop :=
  match packet with
  | none => next = ghost
  | some packet =>
      next.locks = ghost.locks ∧
        next.tokens = own packet.context.mSessionObject (gains packet) + ghost.tokens ∧
        ∀ client, Receives client packet → ∃ buffer touched,
          next.receive = some (client, buffer, touched) ∧
            Filled client thread packet.dwTransferred buffer touched

section Dequeue

variable {input : Input}

/-- The state when the packet has been dequeued. -/
def dequeued (packet : Packet) (data : List UInt8) (state : State workers) : State workers :=
  { state.setSession packet.context.mSessionObject
      (arrive packet data (state.session packet.context.mSessionObject)) with
    inFlight := state.inFlight.erase packet.context }

theorem view_dequeued (owner : packet.context.mSessionObject = .client client) (data : List UInt8) :
    view client (dequeued packet data state, log) =
      { view client (state, log) with
        session := arrive packet data (view client (state, log)).session
        inFlight := (view client (state, log)).inFlight.erase packet.context } := by
  simp [view, dequeued, State.setSession, owner, List.erase_filter]

theorem view_dequeued_of_ne (ne : packet.context.mSessionObject ≠ .client client)
    (data : List UInt8) :
    view client (dequeued packet data state, log) = view client (state, log) := by
  have absent : packet.context ∉
      state.inFlight.filter (·.mSessionObject = .client client) := by
    simp [ne]
  simp [view, dequeued, State.setSession, Function.update_of_ne ne.symm, ← List.erase_filter,
    List.erase_of_not_mem absent]

theorem arrive_of_not_receives (unread : ¬Receives client packet)
    (owner : packet.context.mSessionObject = .client client) (data : List UInt8)
    (session : Session) : arrive packet data session = session := by
  rw [arrive]
  split
  · next kind ret _ => exact absurd ⟨owner, kind, ret⟩ unread
  · rfl

theorem view_append (entry : Entry workers) : view client (state, log ++ [entry]) =
    { view client (state, log) with
      touched := (view client (state, log)).touched ++ [entry].filter (touches client)
      failed := (view client (state, log)).failed + [entry].countP (failsSend client) } := by
  simp [view]

/-- Received bytes go where the window of the receive starts. -/
theorem arrive_of_receives (received : Receives client packet) {session : Session}
    (start : packet.context.mWsaBuf.buf = some session.mRecvBuffer.getBuffer)
    (data : List UInt8) : arrive packet data session =
      { session with mRecvBuffer := session.mRecvBuffer.store data } := by
  rcases received with ⟨_, kind, ret⟩
  rw [arrive, kind, ret, start]
  rfl

/-- A completed receive stores its bytes and is remembered. -/
theorem view_received (received : Receives client packet)
    (packet_eq : input.packet = some packet)
    (start : packet.context.mWsaBuf.buf =
      some (view client (state, log)).session.mRecvBuffer.getBuffer)
    (data : List UInt8) (thread : Thread workers) :
    view client (dequeued packet data state,
        log ++ [⟨thread, input, .getQueuedCompletionStatus, state⟩]) =
      { view client (state, log) with
        session := { (view client (state, log)).session with
          mRecvBuffer := (view client (state, log)).session.mRecvBuffer.store data }
        inFlight := (view client (state, log)).inFlight.erase packet.context
        touched := (view client (state, log)).touched ++
          [⟨thread, input, .getQueuedCompletionStatus, state⟩] } := by
  have touching : touches client
      (⟨thread, input, .getQueuedCompletionStatus, state⟩ : Entry workers) = true := by
    rw [touches, packet_eq]
    exact decide_eq_true received
  have unfailed : failsSend client
      (⟨thread, input, .getQueuedCompletionStatus, state⟩ : Entry workers) = false := by
    rw [failsSend, packet_eq]
    exact decide_eq_false fun failed => by simp [received.2.1] at failed
  rw [view_append, view_dequeued received.1, List.filter_cons_of_pos touching,
    List.countP_cons_of_neg (by simp [unfailed]), arrive_of_receives received start]
  rfl

variable {ghosts : Thread workers → Ghost workers}

/-- A receive completes, and the thread knows what is in the buffer. -/
theorem Guarded.receives (guarded : Guarded (state, log) ghosts) (received : Receives client packet)
    (inFlight : packet.context ∈ state.inFlight) (reports : packet.Reports input.data)
    (packet_eq : input.packet = some packet) :
    ∃ next, Guarded (dequeued packet input.data state,
        log ++ [⟨thread, input, .getQueuedCompletionStatus, state⟩])
        (Function.update ghosts thread next) ∧
      Dequeued thread (ghosts thread) (some packet) next := by
  rcases id received with ⟨owner, kind, ret⟩
  have inside : packet.context ∈ (view client (state, log)).inFlight :=
    List.mem_filter.mpr ⟨inFlight, decide_eq_true owner⟩
  have split := List.perm_cons_erase inside
  rcases (guarded.law client).posted _ inside kind with ⟨older, asked, handed, touched_eq, hands⟩
  let session := (view client (state, log)).session
  have start : packet.context.mWsaBuf.buf = some session.mRecvBuffer.getBuffer :=
    congrArg WsaBuf.buf hands.window
  have here := view_received received packet_eq start input.data thread
  have elsewhere (other : ClientId) (ne : packet.context.mSessionObject ≠ .client other) :
      view other (dequeued packet input.data state,
        log ++ [⟨thread, input, .getQueuedCompletionStatus, state⟩]) =
        view other (state, log) := by
    rw [view_log (by simp [touches, packet_eq, ne]) (by simp [failsSend, packet_eq, ne]),
      view_dequeued_of_ne ne]
  refine ⟨⟨_, _, some (client, session.mRecvBuffer.store input.data,
    (view client (state, log)).touched ++
      [⟨thread, input, .getQueuedCompletionStatus, state⟩])⟩, ?_, rfl, rfl, ?_⟩
  · refine guarded.onView (eq_own_zero _) rfl rfl rfl elsewhere ?_ ?_ ?_ ?_
    · intro other same others _ law
      cases owner.symm.trans same
      have brought := law.dequeue split
      have baton : 0 < amount (brings packet.context.mIoType) .baton := by
        simp [kind, brings]
      have unread := brought.unread (by
        simp only [mayReceive, Pi.add_apply]
        omega)
      rw [here, gains, if_neg (by simp [kind])]
      refine brought.setRecvBuffer ?_ (session.mRecvBuffer.store input.data) rfl unread
      simp only [Pi.add_apply]
      omega
    · intro other buffer touched known
      cases known
      rw [here]
      refine ⟨?_, rfl, rfl⟩
      rw [Ghost.share, owner, Multiset.count_add, count_own]
      simp [gains, kind, brings]
    · intro other _
      simp [gains, kind, brings]
    · intro other same
      cases owner.symm.trans same
      right
      simp only [mayReceive, Pi.add_apply, View.carried_of_perm split, kind]
      simp [brings]
  · intro other again
    cases owner.symm.trans again.1
    refine ⟨_, _, rfl, older, asked, handed,
      ⟨thread, input, .getQueuedCompletionStatus, state⟩, packet, session.mRecvBuffer, ?_, hands,
      rfl, rfl, packet_eq, owner, kind, rfl, reports.2 kind, reports.1, rfl⟩
    rw [touched_eq, List.append_assoc]
    rfl

/-- Any other completion. -/
theorem Guarded.completes (guarded : Guarded (state, log) ghosts)
    (unread : ∀ client, ¬Receives client packet) (inFlight : packet.context ∈ state.inFlight)
    (packet_eq : input.packet = some packet) :
    ∃ next, Guarded (dequeued packet input.data state,
        log ++ [⟨thread, input, .getQueuedCompletionStatus, state⟩])
        (Function.update ghosts thread next) ∧
      Dequeued thread (ghosts thread) (some packet) next := by
  have untouched (client : ClientId) : touches client
      (⟨thread, input, .getQueuedCompletionStatus, state⟩ : Entry workers) = false := by
    rw [touches, packet_eq]
    exact decide_eq_false (unread client)
  have fails (client : ClientId) : failsSend client
      (⟨thread, input, .getQueuedCompletionStatus, state⟩ : Entry workers) =
      decide (packet.context.mSessionObject = .client client ∧ packet.context.mIoType = .ioSend ∧
        (packet.ret = false ∨ packet.dwTransferred = 0)) := by
    rw [failsSend, packet_eq]
    rfl
  have here (client : ClientId) (owner : packet.context.mSessionObject = .client client) :
      view client (dequeued packet input.data state,
        log ++ [⟨thread, input, .getQueuedCompletionStatus, state⟩]) =
        { view client (state, log) with
          inFlight := (view client (state, log)).inFlight.erase packet.context
          failed := (view client (state, log)).failed +
            if packet.context.mIoType = .ioSend ∧
              (packet.ret = false ∨ packet.dwTransferred = 0) then 1 else 0 } := by
    rw [view_append, view_dequeued owner, arrive_of_not_receives (unread client) owner,
      List.filter_cons_of_neg (by simp [untouched])]
    simp [fails, owner, List.countP_cons]
  refine ⟨⟨_, _, none⟩, ?_, rfl, rfl, fun client received => absurd received (unread client)⟩
  refine guarded.onView (eq_own_zero _) rfl rfl rfl ?_ ?_ nofun ?_ ?_
  · intro client ne
    rw [view_log (untouched client) (by simp [fails, ne]), view_dequeued_of_ne ne]
  · intro client owner others _ law
    have inside : packet.context ∈ (view client (state, log)).inFlight :=
      List.mem_filter.mpr ⟨inFlight, decide_eq_true owner⟩
    have brought := law.dequeue (List.perm_cons_erase inside)
    rw [here client owner, gains]
    by_cases failed : packet.context.mIoType = .ioSend ∧
        (packet.ret = false ∨ packet.dwTransferred = 0)
    · rw [failed.1, brings, add_right_comm] at brought
      rw [if_pos failed, if_pos failed, add_right_comm]
      exact brought.failSend
    · rw [if_neg failed, if_neg failed]
      exact brought
  · intro client _
    rw [gains]
    split
    · simp
    · cases packet.context.mIoType <;> simp [brings]
  · intro client owner
    left
    rw [here client owner]
    exact ⟨rfl, rfl⟩

theorem goes_getQueuedCompletionStatus :
    Goes thread .getQueuedCompletionStatus ghost (Dequeued thread ghost) := by
  apply Goes.intro
  rintro state log ghosts guarded rfl
  refine ⟨trivial, ?_⟩
  intro input result after _ performed
  simp only [State.perform] at performed
  split at performed
  · cases performed
    refine ⟨_, guarded.aside rfl fun client => ?_, rfl⟩
    exact view_log (by simp_all [touches]) (by simp_all [failsSend])
  · next packet packet_eq =>
      split at performed
      · next enabled =>
          cases performed
          by_cases received : ∃ client, Receives client packet
          · rcases received with ⟨client, received⟩
            exact guarded.receives received enabled.1 enabled.2 packet_eq
          · exact guarded.completes (not_exists.mp received) enabled.1 packet_eq
      · cases performed

end Dequeue

end Contexts

end Gsp.Homework5.Locking.Owners
